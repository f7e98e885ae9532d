import Mathlib.Data.List.Basic
import Mathlib.Tactic.Common

/-!
# Following next cursors

A client asks for the first page of a listing and follows the next cursors until a page says
that there are no more rows.
-/

namespace RelyLoop.Paging

variable {R C : Type*}

/-- A response of a list endpoint, with its `X-Total-Count` header. -/
structure Page (R C : Type*) where
  data : List R
  nextCursor : Option C
  hasMore : Bool
  totalCount : ℕ

/-- The rows of the pages, in the order in which the client receives them. -/
def rowsOf (pages : List (Page R C)) : List R := pages.flatMap (·.data)

/-- The pages that a client receives from a cursor on. -/
inductive Follows (request : Option C → Option (Page R C)) :
    Option C → List (Page R C) → Prop where
  | last {cursor : Option C} {page : Page R C} (hpage : request cursor = some page)
      (hmore : page.hasMore = false) : Follows request cursor [page]
  | next {cursor : Option C} {page : Page R C} {next : C} {pages : List (Page R C)}
      (hpage : request cursor = some page) (hmore : page.hasMore = true)
      (hnext : page.nextCursor = some next) (hrest : Follows request (some next) pages) :
      Follows request cursor (page :: pages)

/-- A page after which rows are still to come says so, and has a cursor. -/
def AnnounceMore (rows : List R) (pages : List (Page R C)) : Prop :=
  ∀ earlier page later, pages = earlier ++ page :: later →
    ∀ row ∈ rows, row ∉ rowsOf (earlier ++ [page]) →
      page.hasMore = true ∧ page.nextCursor.isSome = true

/-- The client is told of the rows that are still to come, and receives as many as the
`X-Total-Count` header announces. -/
structure Announced (rows : List R) (pages : List (Page R C)) : Prop where
  announceMore : AnnounceMore rows pages
  totalCount : ∀ page ∈ pages, page.totalCount = (rowsOf pages).length

section Follows

variable {request : Option C → Option (Page R C)} {cursor : Option C} {pages : List (Page R C)}

theorem Follows.ne_nil (h : Follows request cursor pages) : pages ≠ [] := by
  cases h <;> exact List.cons_ne_nil _ _

/-- The responses determine the pages. -/
theorem Follows.unique {pages' : List (Page R C)} (h : Follows request cursor pages)
    (h' : Follows request cursor pages') : pages = pages' := by
  induction h generalizing pages' with
  | last hpage hmore =>
    cases h' with
    | last hpage' hmore' =>
      rw [hpage] at hpage'
      rw [Option.some.inj hpage']
    | next hpage' hmore' =>
      rw [hpage] at hpage'
      rw [Option.some.inj hpage', hmore'] at hmore
      cases hmore
  | next hpage hmore hnext hrest ih =>
    cases h' with
    | last hpage' hmore' =>
      rw [hpage] at hpage'
      rw [Option.some.inj hpage', hmore'] at hmore
      cases hmore
    | next hpage' hmore' hnext' hrest' =>
      rw [hpage] at hpage'
      obtain rfl := Option.some.inj hpage'
      rw [hnext] at hnext'
      obtain rfl := Option.some.inj hnext'
      rw [ih hrest']

/-- Every page is the response to a request. -/
theorem Follows.exists_request (h : Follows request cursor pages) :
    ∀ page ∈ pages, ∃ cursor, request cursor = some page := by
  induction h with
  | last hpage hmore =>
    intro page hmem
    obtain rfl := List.mem_singleton.mp hmem
    exact ⟨_, hpage⟩
  | next hpage hmore hnext hrest ih =>
    intro page hmem
    rcases List.mem_cons.mp hmem with rfl | hmem
    · exact ⟨_, hpage⟩
    · exact ih page hmem

/-- Every page but the last says that there are more, and has a cursor. -/
theorem Follows.hasMore (h : Follows request cursor pages) :
    ∀ earlier page later, pages = earlier ++ page :: later → later ≠ [] →
      page.hasMore = true ∧ page.nextCursor.isSome = true := by
  induction h with
  | last hpage hmore =>
    intro earlier page later heq hlater
    have hlength := congrArg List.length heq
    have hpos := List.length_pos_of_ne_nil hlater
    simp only [List.length_append, List.length_cons, List.length_nil] at hlength
    omega
  | @next cursor page next pages hpage hmore hnext hrest ih =>
    intro earlier page' later heq hlater
    cases earlier with
    | nil =>
      obtain ⟨rfl, rfl⟩ := List.cons.inj heq
      exact ⟨hmore, by rw [hnext]; rfl⟩
    | cons first earlier => exact ih earlier page' later (List.cons.inj heq).2 hlater

/-- A client that has received all the rows has been told of them. -/
theorem Follows.announceMore {rows : List R} (h : Follows request cursor pages)
    (hrows : rowsOf pages = rows) : AnnounceMore rows pages := by
  intro earlier page later heq row hrow hmissing
  refine h.hasMore earlier page later heq ?_
  rintro rfl
  rw [← heq, hrows] at hmissing
  exact hmissing hrow

/-- A client that receives the listing is told of it, if every response counts it. -/
theorem Follows.announced {rows : List R} (h : Follows request cursor pages)
    (hrows : rowsOf pages = rows)
    (htotal : ∀ cursor page, request cursor = some page → page.totalCount = rows.length) :
    Announced rows pages where
  announceMore := h.announceMore hrows
  totalCount := by
    intro page hmem
    obtain ⟨cursor, hpage⟩ := h.exists_request page hmem
    rw [htotal cursor page hpage, hrows]

end Follows

/-! ## Cursors of a listing -/

/-- The page shows the first of the rows, and its cursor stands before the others. -/
inductive Page.Shows (Before : C → List R → Prop) (page : Page R C) : List R → Prop where
  | all (hmore : page.hasMore = false) : Shows Before page page.data
  | part {next : C} {rest : List R} (hmore : page.hasMore = true) (hdata : page.data ≠ [])
      (hnext : page.nextCursor = some next) (hrest : Before next rest) :
      Shows Before page (page.data ++ rest)

/-- If a request from a cursor shows the rows that the cursor stands before, then a client
that follows the cursors receives all of them. The rows that are left get fewer. -/
theorem exists_follows {request : Option C → Option (Page R C)} {Before : C → List R → Prop}
    (hstep : ∀ cursor rows, Before cursor rows →
      ∃ page, request (some cursor) = some page ∧ page.Shows Before rows)
    {cursor : Option C} {page : Page R C} {rows : List R} (hpage : request cursor = some page)
    (hshows : page.Shows Before rows) :
    ∃ pages, Follows request cursor pages ∧ rowsOf pages = rows := by
  induction hlength : rows.length using Nat.strongRecOn generalizing cursor page rows with
  | ind n ih =>
    cases hshows with
    | all hmore => exact ⟨[page], .last hpage hmore, List.append_nil _⟩
    | @part next rest hmore hdata hnext hrest =>
      obtain ⟨page', hpage', hshows'⟩ := hstep next rest hrest
      have hshorter : rest.length < n := by
        have hpos := List.length_pos_of_ne_nil hdata
        rw [← hlength, List.length_append]
        omega
      obtain ⟨pages, hfollows, hrows⟩ := ih rest.length hshorter hpage' hshows' rfl
      refine ⟨page :: pages, .next hpage hmore hnext hfollows, ?_⟩
      rw [← hrows]
      rfl

/-- The cursor is that of a row of the listing, and stands before the rows behind it. -/
def StandsBefore (listing : List R) (cursorOf : R → C) (cursor : C) (rows : List R) : Prop :=
  ∃ earlier row, listing = earlier ++ row :: rows ∧ cursor = cursorOf row

/-! ## Page boundaries -/

/-- A page of exactly `limit` rows is followed by another one. -/
def pageOfLimit (cursorOf : R → C) (limit total : ℕ) (rows : List R) : Page R C :=
  match rows.getLast? with
  | some last =>
    if rows.length = limit then ⟨rows, some (cursorOf last), true, total⟩
    else ⟨rows, none, false, total⟩
  | none => ⟨rows, none, false, total⟩

/-- A row beyond `limit` is not shown, and tells that there are more. -/
def pageOfOverFetch (cursorOf : R → C) (limit total : ℕ) (rows : List R) : Page R C :=
  let hasMore := decide (limit < rows.length)
  let visible := rows.take limit
  ⟨visible, if hasMore then visible.getLast?.map cursorOf else none, hasMore, total⟩

variable {cursorOf : R → C} {limit total : ℕ} {listing rows : List R}

@[simp] theorem totalCount_pageOfLimit :
    (pageOfLimit cursorOf limit total rows).totalCount = total := by
  rw [pageOfLimit]
  split
  · split <;> rfl
  · rfl

@[simp] theorem totalCount_pageOfOverFetch :
    (pageOfOverFetch cursorOf limit total rows).totalCount = total := rfl

/-- The last of the first rows of a listing, and the rows behind it. -/
theorem exists_take_eq (hlimit : 0 < limit) (hlength : limit ≤ rows.length) :
    ∃ first last, rows.take limit = first ++ [last] ∧
      rows = first ++ last :: rows.drop limit := by
  have hne : rows.take limit ≠ [] := by
    intro hnil
    have h := congrArg List.length hnil
    simp only [List.length_take, List.length_nil] at h
    omega
  have hsplit := List.dropLast_append_getLast hne
  refine ⟨(rows.take limit).dropLast, (rows.take limit).getLast hne, hsplit.symm, ?_⟩
  conv_lhs => rw [← List.take_append_drop limit rows, ← hsplit]
  exact (List.append_cons _ _ _).symm

/-- The cursor of a row of the listing stands before the rows behind it. -/
theorem standsBefore_of_append {earlier : List R} (hlisting : listing = earlier ++ rows) :
    ∀ first last rest, rows = first ++ last :: rest → first.length + 1 = limit →
      StandsBefore listing cursorOf (cursorOf last) rest := by
  intro first last rest hrows _
  exact ⟨earlier ++ first, last, by rw [hlisting, hrows, List.append_assoc], rfl⟩

/-- A full page with the cursor of its last row. -/
theorem shows_of_take (total : ℕ) {page : Page R C} {Before : C → List R → Prop}
    (hlimit : 0 < limit) (hlength : limit ≤ rows.length)
    (hbefore : ∀ first last rest, rows = first ++ last :: rest → first.length + 1 = limit →
      Before (cursorOf last) rest)
    (hpage : ∀ first last, rows.take limit = first ++ [last] →
      page = ⟨first ++ [last], some (cursorOf last), true, total⟩) :
    page.Shows Before rows := by
  obtain ⟨first, last, htake, hrows⟩ := exists_take_eq hlimit hlength
  have hlast : first.length + 1 = limit := by
    have h := congrArg List.length htake
    rw [List.length_take, Nat.min_eq_left hlength, List.length_append, List.length_singleton] at h
    exact h.symm
  have hrest := hbefore first last _ hrows hlast
  have hsplit : rows = (first ++ [last]) ++ rows.drop limit := by
    rw [← htake, List.take_append_drop]
  rw [hpage first last htake, hsplit]
  exact .part rfl (List.append_ne_nil_of_right_ne_nil _ (List.cons_ne_nil _ _)) rfl hrest

/-- `limit` rows are asked for, and the page shows all of them. -/
theorem pageOfLimit_shows (hlimit : 0 < limit) {Before : C → List R → Prop}
    (hbefore : ∀ first last rest, rows = first ++ last :: rest → first.length + 1 = limit →
      Before (cursorOf last) rest) :
    (pageOfLimit cursorOf limit total (rows.take limit)).Shows Before rows := by
  rcases Nat.lt_or_ge rows.length limit with hshort | hlong
  · have htake : rows.take limit = rows := List.take_of_length_le (Nat.le_of_lt hshort)
    have hpage : pageOfLimit cursorOf limit total (rows.take limit) = ⟨rows, none, false, total⟩ := by
      rw [htake, pageOfLimit]
      split
      · rw [if_neg (Nat.ne_of_lt hshort)]
      · rfl
    rw [hpage]
    exact .all rfl
  · refine shows_of_take total hlimit hlong hbefore fun first last htake => ?_
    have hlength : (first ++ [last]).length = limit := by
      rw [← htake, List.length_take, Nat.min_eq_left hlong]
    rw [htake, pageOfLimit, List.getLast?_concat]
    simp only [hlength, if_true]

theorem pageOfOverFetch_of_le (hlength : rows.length ≤ limit) :
    pageOfOverFetch cursorOf limit total rows = ⟨rows, none, false, total⟩ := by
  rw [pageOfOverFetch]
  simp only [Nat.not_lt.mpr hlength, decide_false, Bool.false_eq_true, if_false,
    List.take_of_length_le hlength]

theorem pageOfOverFetch_of_lt (hlength : limit < rows.length) {first : List R} {last : R}
    (htake : rows.take limit = first ++ [last]) :
    pageOfOverFetch cursorOf limit total rows =
      ⟨first ++ [last], some (cursorOf last), true, total⟩ := by
  rw [pageOfOverFetch]
  simp only [hlength, decide_true, if_true, htake, List.getLast?_concat, Option.map_some]

/-- `fetch` rows are asked for, which are more than the page shows. -/
theorem pageOfOverFetch_shows {fetch : ℕ} (hlimit : 0 < limit) (hfetch : limit < fetch)
    {Before : C → List R → Prop}
    (hbefore : ∀ first last rest, rows = first ++ last :: rest → first.length + 1 = limit →
      Before (cursorOf last) rest) :
    (pageOfOverFetch cursorOf limit total (rows.take fetch)).Shows Before rows := by
  rcases Nat.lt_or_ge limit rows.length with hlong | hshort
  · refine shows_of_take total hlimit (Nat.le_of_lt hlong) hbefore fun first last htake => ?_
    refine pageOfOverFetch_of_lt ?_ ?_
    · rw [List.length_take]
      exact Nat.lt_min.mpr ⟨hfetch, hlong⟩
    · rw [List.take_take, Nat.min_eq_left (Nat.le_of_lt hfetch), htake]
  · have hall : rows.take fetch = rows :=
      List.take_of_length_le (Nat.le_trans hshort (Nat.le_of_lt hfetch))
    rw [hall, pageOfOverFetch_of_le hshort]
    exact .all rfl

/-! ## Listings -/

variable {request : Option C → Option (Page R C)}

/-- A client receives the whole listing, if the pages are cut from it and a cursor stands
before the rows behind its own. -/
theorem exists_follows_listing {pageOf : List R → Page R C} {fetch : ℕ}
    (hshows : ∀ earlier rows, listing = earlier ++ rows →
      (pageOf (rows.take fetch)).Shows (StandsBefore listing cursorOf) rows)
    (hfirst : request none = some (pageOf (listing.take fetch)))
    (hnext : ∀ earlier row rows, listing = earlier ++ row :: rows →
      request (some (cursorOf row)) = some (pageOf (rows.take fetch))) :
    ∃ pages, Follows request none pages ∧ rowsOf pages = listing := by
  refine exists_follows ?_ hfirst (hshows [] listing rfl)
  rintro cursor rows ⟨earlier, row, hlisting, rfl⟩
  have hsplit : listing = (earlier ++ [row]) ++ rows := by
    rw [hlisting, List.append_cons]
  exact ⟨_, hnext earlier row rows hlisting, hshows (earlier ++ [row]) rows hsplit⟩

end RelyLoop.Paging
