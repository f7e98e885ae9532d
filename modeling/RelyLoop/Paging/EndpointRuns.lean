import RelyLoop.Paging.Endpoints

/-!
# Runs over list endpoints

An endpoint whose repository returns the row beyond the page tells the client of every row.
At the largest limit the clamp of two endpoints removes that row, and with it the rest of the
listing.
-/

namespace RelyLoop.Paging

open Python

variable {F : Type} [PyFloat F]

/-! ## The parts of an endpoint -/

/-- The endpoint reads the cursors that it writes, and counts the rows that it lists. -/
structure ListEndpoint.Sound (e : ListEndpoint F) : Prop where
  decode_encodeCursor : ∀ query row,
    e.decode (e.order query) ((e.order query).encodeCursor e.idCol row) =
      some (cursorValueOf (e.order query).keysetParsed (e.order query).orderCol row, e.idCol row)
  countFilter_eq : e.countFilter = e.filter

/-- A cursor of the default order holds a time. -/
theorem decodeCreatedAtCursor_encodeCursor {R : Type} (idCol : R → String)
    (order : ListOrder R F) (hparsed : order.parsedSort = none) (hrank : order.rankBucket = none)
    (row : R) :
    decodeCreatedAtCursor (F := F) (order.encodeCursor idCol row) =
      some (cursorValueOf order.keysetParsed order.orderCol row, idCol row) := by
  have h := decodeCursor_encodeCursor idCol order row
  obtain ⟨parsed, createdAt, rankBucket⟩ := order
  obtain rfl := hparsed
  obtain rfl := hrank
  have hraw : decodeValueCursor (F := F)
      ((⟨none, createdAt, none⟩ : ListOrder R F).encodeCursor idCol row) true =
      some (.datetime (createdAt row), idCol row) := h
  rw [decodeCreatedAtCursor, hraw]
  rfl

theorem endpoint_sound (surroundings : Surroundings F) (name : EndpointName) :
    (endpoint surroundings name).Sound := by
  cases name with
  | studies => exact ⟨fun _ => decodeCursor_encodeCursor _ _, rfl⟩
  | clusters => exact ⟨fun _ => decodeCursor_encodeCursor _ _, rfl⟩
  | querySets => exact ⟨fun _ => decodeCursor_encodeCursor _ _, rfl⟩
  | queryTemplates => exact ⟨fun _ => decodeCursor_encodeCursor _ _, rfl⟩
  | judgmentLists => exact ⟨fun _ => decodeCursor_encodeCursor _ _, rfl⟩
  | judgments =>
    exact ⟨fun query => decodeCursor_encodeCursor JudgmentRow.id (listJudgments.order query), rfl⟩
  | proposals =>
    exact ⟨fun query => decodeCursor_encodeCursor ProposalRow.id
      ((listProposals surroundings.livePointers).order query), rfl⟩
  | conversations =>
    refine ⟨fun query row => ?_, rfl⟩
    simp only [endpoint, listConversations]
    cases hrank : rankActive (F := F) surroundings.conversations query.q none with
    | none =>
      rw [Option.isSome_none, if_neg Bool.false_ne_true]
      exact decodeCreatedAtCursor_encodeCursor _ _ rfl rfl row
    | some rankBucket =>
      rw [Option.isSome_some, if_pos rfl]
      exact decodeCursor_encodeCursor _ _ row
  | configRepos =>
    refine ⟨fun query row => ?_, rfl⟩
    simp only [endpoint, listConfigRepos]
    exact decodeCreatedAtCursor_encodeCursor _ _ rfl rfl row

/-- The clamp leaves the rows that the page needs. -/
def Boundary.Covers : Boundary → ℕ → Prop
  | atLimit clamp, limit => clamp limit = limit
  | overFetch clamp, limit => limit < clamp (limit + 1)

theorem Boundary.Covers.shows {R C : Type} {b : Boundary} {limit : ℕ} (h : b.Covers limit)
    (hlimit : 1 ≤ limit) {cursorOf : R → C} {total : ℕ} {listing earlier rows : List R}
    (hlisting : listing = earlier ++ rows) :
    (b.pageOf limit cursorOf total (rows.take (b.fetch limit))).Shows
      (StandsBefore listing cursorOf) rows := by
  cases b with
  | atLimit clamp =>
    have hfetch : clamp limit = limit := h
    simp only [pageOf, fetch, hfetch]
    exact pageOfLimit_shows hlimit (standsBefore_of_append hlisting)
  | overFetch clamp => exact pageOfOverFetch_shows hlimit h (standsBefore_of_append hlisting)

theorem Boundary.totalCount_pageOf {R C : Type} (b : Boundary) (limit : ℕ) (cursorOf : R → C)
    (total : ℕ) (rows : List R) : (b.pageOf limit cursorOf total rows).totalCount = total := by
  cases b with
  | atLimit clamp => exact totalCount_pageOfLimit
  | overFetch clamp => exact totalCount_pageOfOverFetch

/-! ## Runs -/

namespace ListEndpoint

variable {e : ListEndpoint F} (db : Database F) (query : e.Query) {limit : ℕ}
  {table : List e.Row}

/-- The rows that the filters keep. -/
def matching (e : ListEndpoint F) (query : e.Query) (table : List e.Row) : List e.Row :=
  table.filter fun row => (e.filter query row).holds

/-- A client that follows the next cursors until `has_more` is false is told of the rows that
are still to come, and receives as many rows as the header announces. -/
def TellsOfAllRows (e : ListEndpoint F) (db : Database F) (query : e.Query) (limit : ℕ)
    (table : List e.Row) : Prop :=
  ∃ pages, Follows (e.respond db query limit table) none pages ∧
    Announced (e.matching query table) pages

theorem totalCount_respond (hsound : e.Sound) {cursor : Option (List Char)}
    {page : Page e.Row (List Char)} (hpage : e.respond db query limit table cursor = some page) :
    page.totalCount = (e.matching query table).length := by
  rw [totalCount_listPage db e.idCol (e.order query) (e.filter query)
    (e.boundary.totalCount_pageOf limit) hpage, hsound.countFilter_eq, List.countP_eq_length_filter]
  rfl

/-- A client that receives the listing is told of all rows. -/
theorem tellsOfAllRows_of_listing (hsound : e.Sound) {pages : List (Page e.Row (List Char))}
    (hfollows : Follows (e.respond db query limit table) none pages)
    (hrows : rowsOf pages = (e.order query).listing db e.idCol (e.filter query) table) :
    e.TellsOfAllRows db query limit table := by
  have hperm := listing_perm db e.idCol (e.order query) (e.filter query) table
  have hannounced := hfollows.announced hrows fun cursor page hpage => by
    rw [totalCount_respond db query hsound hpage, hperm.length_eq]
    rfl
  refine ⟨pages, hfollows, fun earlier page later heq row hrow => ?_, hannounced.totalCount⟩
  exact hannounced.announceMore earlier page later heq row (hperm.mem_iff.mpr hrow)

/-- An endpoint whose clamp leaves the rows of a page tells of all rows. -/
theorem tellsOfAllRows_of_covers (hsound : e.Sound) (hids : (table.map e.idCol).Nodup)
    (hlimit : 1 ≤ limit) (hcovers : e.boundary.Covers limit) :
    e.TellsOfAllRows db query limit table := by
  obtain ⟨pages, hfollows, hrows⟩ := exists_follows_listPage db e.idCol (e.order query)
    (e.filter query) hids (e.decode (e.order query)) (hsound.decode_encodeCursor query)
    (e.countFilter query) (e.boundary.fetch limit) (e.boundary.pageOf limit)
    fun total earlier rows hlisting => hcovers.shows hlimit hlisting
  exact tellsOfAllRows_of_listing db query hsound hfollows hrows

/-- Where the clamp removes the row beyond the page, the first page is the last. -/
theorem follows_of_clamp (table : List e.Row) {clamp : ℕ → ℕ} (hboundary : e.boundary = .overFetch clamp)
    (hclamp : clamp (limit + 1) = limit) :
    Follows (e.respond db query limit table) none
      [⟨((e.order query).listing db e.idCol (e.filter query) table).take limit, none, false,
        table.countP fun row => (e.countFilter query row).holds⟩] := by
  refine .last ?_ rfl
  rw [respond, hboundary, listPage]
  simp only [decodeIfPresent, ListOrder.listRows, Option.map_some, Boundary.fetch, Boundary.pageOf,
    hclamp, pageOfOverFetch, select, List.take_take, Nat.min_self]
  have hnone : ¬ limit < (List.take limit ((e.order query).listing db e.idCol (e.filter query)
      table)).length := by
    rw [List.length_take]
    omega
  change some (Page.mk _ (if decide (limit < (List.take limit ((e.order query).listing db e.idCol
    (e.filter query) table)).length) then _ else none) (decide (limit < (List.take limit
    ((e.order query).listing db e.idCol (e.filter query) table)).length)) _) = _
  rw [decide_eq_false hnone]
  rfl

/-- Such an endpoint tells of all rows if they fit on the page. -/
theorem tellsOfAllRows_iff_of_clamp (hsound : e.Sound) {clamp : ℕ → ℕ}
    (hboundary : e.boundary = .overFetch clamp) (hclamp : clamp (limit + 1) = limit) :
    e.TellsOfAllRows db query limit table ↔ (e.matching query table).length ≤ limit := by
  have hfollows := follows_of_clamp db query table hboundary hclamp
  have hlength : ((e.order query).listing db e.idCol (e.filter query) table).length =
      (e.matching query table).length :=
    (listing_perm db e.idCol (e.order query) (e.filter query) table).length_eq
  constructor
  · rintro ⟨pages, hpages, hannounced⟩
    obtain rfl := hpages.unique hfollows
    have htotal := hannounced.totalCount _ List.mem_cons_self
    rw [totalCount_respond db query hsound (hfollows.exists_request _ List.mem_cons_self).choose_spec]
      at htotal
    simp only [rowsOf, List.flatMap_cons, List.flatMap_nil, List.append_nil, List.length_take,
      hlength] at htotal
    omega
  · intro hfits
    refine tellsOfAllRows_of_listing db query hsound hfollows ?_
    rw [rowsOf, List.flatMap_cons, List.flatMap_nil, List.append_nil]
    exact List.take_of_length_le (hlength ▸ hfits)

end ListEndpoint

/-- The repositories leave the rows of a page, but for two at the largest limit. -/
theorem endpoint_covers (surroundings : Surroundings F) {name : EndpointName} {limit : ℕ}
    (hmax : limit ≤ maxPageLimit)
    (h : (name ≠ .proposals ∧ name ≠ .conversations) ∨ limit < maxPageLimit) :
    (endpoint surroundings name).boundary.Covers limit := by
  have hatLimit : (Boundary.atLimit (min · 200)).Covers limit := Nat.min_eq_left hmax
  have hall : (Boundary.overFetch id).Covers limit := Nat.lt_succ_self limit
  have hbelow : limit < maxPageLimit → (Boundary.overFetch (min · 200)).Covers limit := fun h =>
    Nat.lt_min.mpr ⟨Nat.lt_succ_self limit, h⟩
  cases name with
  | studies => exact hatLimit
  | clusters => exact hatLimit
  | querySets => exact hatLimit
  | queryTemplates => exact hatLimit
  | judgmentLists => exact hall
  | judgments => exact hall
  | proposals => exact hbelow (h.resolve_left fun h => h.1 rfl)
  | conversations => exact hbelow (h.resolve_left fun h => h.2 rfl)
  | configRepos =>
    exact Nat.lt_min.mpr ⟨Nat.lt_succ_self limit, Nat.lt_succ_of_le hmax⟩

theorem endpoint_clamps (surroundings : Surroundings F) {name : EndpointName}
    (h : ¬(name ≠ .proposals ∧ name ≠ .conversations)) :
    (endpoint surroundings name).boundary = .overFetch (min · 200) := by
  by_cases hproposals : name = .proposals
  · rw [hproposals]
    rfl
  · by_cases hconversations : name = .conversations
    · rw [hconversations]
      rfl
    · exact absurd ⟨hproposals, hconversations⟩ h

/-- At every limit, an endpoint tells the client of all rows, except that proposals and
conversations end after 200 rows at the largest limit. -/
theorem tellsOfAllRows_iff (surroundings : Surroundings F) (name : EndpointName)
    (db : Database F) (query : (endpoint surroundings name).Query) {limit : ℕ}
    (hlimit : 1 ≤ limit) (hmax : limit ≤ maxPageLimit)
    {table : List (endpoint surroundings name).Row}
    (hids : (table.map (endpoint surroundings name).idCol).Nodup) :
    (endpoint surroundings name).TellsOfAllRows db query limit table ↔
      (name ≠ .proposals ∧ name ≠ .conversations) ∨ limit < maxPageLimit ∨
        ((endpoint surroundings name).matching query table).length ≤ maxPageLimit := by
  have hsound := endpoint_sound surroundings name
  by_cases hcovers : (name ≠ .proposals ∧ name ≠ .conversations) ∨ limit < maxPageLimit
  · have htells := ListEndpoint.tellsOfAllRows_of_covers db query hsound hids hlimit
      (endpoint_covers surroundings hmax hcovers)
    exact iff_of_true htells (hcovers.imp_right .inl)
  · obtain ⟨hname, hlarge⟩ := not_or.mp hcovers
    obtain rfl : limit = maxPageLimit := Nat.le_antisymm hmax (Nat.not_lt.mp hlarge)
    rw [ListEndpoint.tellsOfAllRows_iff_of_clamp db query hsound
      (endpoint_clamps surroundings hname) rfl]
    constructor
    · intro hfits
      exact .inr (.inr hfits)
    · intro h
      exact (h.resolve_left hname).resolve_left hlarge

/-! ## Two hundred and one proposals -/

/-- No text matches a query. -/
def noMatches (R : Type) : TextSearch R where
  matchesQuery _ _ := some false
  rankBucket _ _ := 0

/-- The surroundings of a table of proposals. -/
def quietSurroundings : Surroundings SampleFloat where
  studies := noMatches _
  clusters := noMatches _
  querySets := noMatches _
  queryTemplates := noMatches _
  judgmentLists := noMatches _
  conversations := noMatches _
  livePointers := []

/-- `GET /proposals` without filters. -/
def allProposals : ProposalQuery where
  status := none
  clusterId := none
  source := none
  templateId := none
  studyId := none
  isLastMerged := none
  includeSuperseded := false
  sort := none

/-- Pending proposals with the ids `0`, `1`, …. -/
def pendingProposals (n : ℕ) : List ProposalRow :=
  (List.range n).map fun i =>
    { id := String.ofList (Nat.toDigits 10 i)
      status := "pending"
      clusterId := "c"
      templateId := "t"
      studyId := none
      prState := none
      createdAt := january 1 first_day_le }

theorem nodup_pendingProposals (n : ℕ) : ((pendingProposals n).map ProposalRow.id).Nodup := by
  rw [pendingProposals, List.map_map]
  refine List.nodup_range.map fun i j hij => ?_
  have hread := congrArg readNumeral (String.ofList_injective hij)
  rw [readNumeral_toDigits, readNumeral_toDigits] at hread
  exact Option.some.inj hread

theorem length_matching_pendingProposals (n : ℕ) :
    ((endpoint quietSurroundings .proposals).matching allProposals (pendingProposals n)).length =
      n := by
  have hall : (pendingProposals n).filter (fun row =>
      (listProposalsWhere quietSurroundings.livePointers allProposals row).holds) =
      pendingProposals n := by
    refine List.filter_eq_self.mpr fun row hrow => ?_
    obtain ⟨i, -, rfl⟩ := List.mem_map.mp hrow
    rfl
  have hlength : ((pendingProposals n).filter fun row =>
      (listProposalsWhere quietSurroundings.livePointers allProposals row).holds).length = n := by
    rw [hall, pendingProposals, List.length_map, List.length_range]
  exact hlength

theorem proposals_lost :
    ¬(endpoint quietSurroundings .proposals).TellsOfAllRows sampleDatabase allProposals 200
      (pendingProposals 201) := by
  have hiff : (endpoint quietSurroundings .proposals).TellsOfAllRows sampleDatabase allProposals
      200 (pendingProposals 201) ↔ ((endpoint quietSurroundings .proposals).matching allProposals
        (pendingProposals 201)).length ≤ 200 :=
    ListEndpoint.tellsOfAllRows_iff_of_clamp sampleDatabase allProposals
      (endpoint_sound quietSurroundings .proposals) (endpoint_clamps quietSurroundings
        fun h => h.1 rfl) rfl
  rw [hiff, length_matching_pendingProposals]
  decide

theorem tellsOfAllRows_iff_pendingProposals :
    (endpoint quietSurroundings .proposals).TellsOfAllRows sampleDatabase allProposals 200
        (pendingProposals 201) ↔
      (EndpointName.proposals ≠ .proposals ∧ EndpointName.proposals ≠ .conversations) ∨
        200 < maxPageLimit ∨ ((endpoint quietSurroundings .proposals).matching allProposals
          (pendingProposals 201)).length ≤ maxPageLimit :=
  tellsOfAllRows_iff quietSurroundings .proposals sampleDatabase allProposals (by decide)
    (by decide) (nodup_pendingProposals 201)

end RelyLoop.Paging
