import RelyLoop.Paging.Endpoints
import RelyLoop.Paging.UuidBounds
import RelyLoop.Python.Dict
import RelyLoop.Python.JsonTexts

/-!
# Pages of queries

The queries of a query set are listed in the order of their ids, which is that of their
creation. A filter for the queries since an instant compares the ids with a bound, and keeps
the right ones as long as the instant is not before 1970.
-/

namespace RelyLoop.Paging

open Python Text

variable {F : Type}

/-- A row of `queries`. -/
structure QueryRow (F : Type) where
  id : UuidV7
  querySetId : String
  queryText : String
  referenceAnswer : Option String
  queryMetadata : Option (Dict String (Json F))

/-- The id of a row, as a text. -/
def QueryRow.idText (row : QueryRow F) : String := String.ofList row.id.text

/-! ## Queries -/

/-- `where(Query.id >= since_lower_bound_id)`. -/
def whereLowerBound (sinceLowerBoundId : Option (List Char)) (row : QueryRow F) : Truth :=
  match sinceLowerBoundId with
  | none => some true
  | some bound => some (decide (bound ≤ row.idText.toList))

/-- The conditions of `list_queries_for_set_cursor` without its cursor. -/
def listQueriesWhere (querySetId : String) (sinceLowerBoundId : Option (List Char))
    (row : QueryRow F) : Truth :=
  allOf [some (row.querySetId == querySetId), whereLowerBound sinceLowerBoundId row]

/-- The conditions of `count_queries_for_set`. -/
def countQueriesWhere (querySetId : String) (sinceLowerBoundId : Option (List Char))
    (row : QueryRow F) : Truth :=
  allOf [some (row.querySetId == querySetId), whereLowerBound sinceLowerBoundId row]

/-- `order_by(Query.id)`. -/
def queryIdOrder : SqlOrder (QueryRow F) :=
  (SqlOrder.ofLinearOrder : SqlOrder String).comap QueryRow.idText

/-- `list_queries_for_set_cursor`. -/
def listQueriesForSetCursor (querySetId : String) (afterId : Option String) (limit : ℕ)
    (sinceLowerBoundId : Option (List Char)) (table : List (QueryRow F)) : List (QueryRow F) :=
  match afterId with
  | none => select (listQueriesWhere querySetId sinceLowerBoundId) queryIdOrder limit table
  | some afterId =>
    select (fun row => (listQueriesWhere querySetId sinceLowerBoundId row).and
      (some (decide (afterId < row.idText)))) queryIdOrder limit table

/-- `count_queries_for_set`. -/
def countQueriesForSet (querySetId : String) (sinceLowerBoundId : Option (List Char))
    (table : List (QueryRow F)) : ℕ :=
  table.countP fun row => (countQueriesWhere querySetId sinceLowerBoundId row).holds

/-! ## Cursors -/

/-- `[0-9a-f]`. -/
def isLowerHex (c : Char) : Bool := c.isDigit || ('a' ≤ c && c ≤ 'f')

/-- Groups of digits with hyphens between them, and the rest of the text. -/
def skipHexGroups : List ℕ → List Char → Option (List Char)
  | [], text => some text
  | [width], text =>
    if (text.take width).length = width ∧ (text.take width).all isLowerHex then
      some (text.drop width)
    else none
  | width :: width' :: widths, text =>
    if (text.take width).length = width ∧ (text.take width).all isLowerHex then
      match text.drop width with
      | '-' :: text => skipHexGroups (width' :: widths) text
      | _ => none
    else none

/-- A match of `_UUID_HEX_RE`. Its `$` stands at the end, or before a last line feed. -/
def matchesUuidHex (text : List Char) : Bool :=
  skipHexGroups [8, 4, 4, 4, 12] text == some [] ||
    skipHexGroups [8, 4, 4, 4, 12] text == some ['\n']

variable [PyFloat F]

variable (F) in
/-- `_encode_query_cursor`. -/
def encodeQueryCursor (queryId : String) : List Char :=
  encodeToken (F := F) {} (.dict ["id"] [.str queryId])

variable (F) in
/-- `_decode_query_cursor`. -/
def decodeQueryCursor (raw : List Char) : Option String :=
  match decodeToken (F := F) raw with
  | some (.dict keys values) =>
    match (Json.dict keys values).get? "id" with
    | some (.str idValue) => if matchesUuidHex idValue.toList then some idValue else none
    | _ => none
  | _ => none

/-- `list_queries_in_set`, of a query set that exists. -/
def listQueriesInSet (querySetId : String) (limit : ℕ) (since : Option AnyDateTime)
    (table : List (QueryRow F)) (cursor : Option (List Char)) :
    Option (Page (QueryRow F) (List Char)) :=
  let sinceLb := since.map uuidv7LowerBoundFromIso
  (decodeIfPresent (decodeQueryCursor F) cursor).map fun afterId =>
    pageOfLimit (fun last => encodeQueryCursor F last.idText) limit
      (countQueriesForSet querySetId sinceLb table)
      (listQueriesForSetCursor querySetId afterId limit sinceLb table)

/-! ## Cursors are read back -/

section Digits

omit [PyFloat F]

theorem isLowerHex_of_mem {width n : ℕ} {c : Char} (h : c ∈ hexNumeral width n) :
    isLowerHex c = true := by
  have hall : ∀ k : Fin 16, isLowerHex (Nat.digitChar k) = true := by decide
  obtain ⟨k, rfl⟩ := mem_lastDigits _ _ h
  exact hall ⟨k % 16, Nat.mod_lt _ (by decide)⟩

/-- A numeral is a group of digits. -/
theorem isGroup_hexNumeral (width n : ℕ) (text : List Char) :
    (((hexNumeral width n ++ text).take width).length = width ∧
      ((hexNumeral width n ++ text).take width).all isLowerHex = true) ∧
      (hexNumeral width n ++ text).drop width = text := by
  have hlength : (hexNumeral width n).length = width := length_lastDigits _ _ _ _
  refine ⟨⟨?_, ?_⟩, ?_⟩
  · rw [List.take_left' hlength, hlength]
  · rw [List.take_left' hlength]
    exact List.all_eq_true.mpr fun c hc => isLowerHex_of_mem hc
  · exact List.drop_left' hlength

theorem skipHexGroups_hexNumeral (width n width' : ℕ) (widths : List ℕ) (text : List Char) :
    skipHexGroups (width :: width' :: widths) (hexNumeral width n ++ '-' :: text) =
      skipHexGroups (width' :: widths) text := by
  obtain ⟨hgroup, hrest⟩ := isGroup_hexNumeral width n ('-' :: text)
  rw [skipHexGroups, if_pos hgroup, hrest]
  rfl

/-- A UUID matches the pattern. -/
theorem matchesUuidHex_text (id : UuidV7) : matchesUuidHex id.text = true := by
  have hlast (n : ℕ) : skipHexGroups [12] (hexNumeral 12 n) = some [] := by
    obtain ⟨hgroup, hrest⟩ := isGroup_hexNumeral 12 n []
    rw [List.append_nil] at hgroup hrest
    rw [skipHexGroups, if_pos hgroup, hrest]
  rw [matchesUuidHex, UuidV7.text, uuidText]
  simp only [skipHexGroups_hexNumeral, hlast]
  rfl

end Digits

/-- The cursor of a row is read back. -/
theorem decodeQueryCursor_encodeQueryCursor (row : QueryRow F) :
    decodeQueryCursor F (encodeQueryCursor F row.idText) = some row.idText := by
  have hloads : loads (dumps {} (.dict ["id"] [.str row.idText] : Json F)) =
      some (.dict ["id"] [.str row.idText] : Json F) := by
    have hnone : ∀ c ∈ ([] : List Char), isJsonSpace c = true := List.forall_mem_nil _
    have h := loads_dumpsWith (fun s => spelled_escape s.toList)
      (.dict ["id"] [.str row.idText] : Json F) ⟨by decide, rfl, trivial, trivial⟩ hnone hnone
    rwa [List.nil_append, List.append_nil, ← dumps_eq_dumpsWith] at h
  rw [decodeQueryCursor, encodeQueryCursor, decodeToken_encodeToken_of_loads {} hloads]
  have hmatch : matchesUuidHex row.idText.toList = true := by
    rw [QueryRow.idText, String.toList_ofList]
    exact matchesUuidHex_text row.id
  have hid : (Json.dict ["id"] [.str row.idText] : Json F).get? "id" = some (.str row.idText) := rfl
  simp only [hid, hmatch, if_true]

theorem encodeQueryCursor_ne_nil (row : QueryRow F) : encodeQueryCursor F row.idText ≠ [] := by
  intro hnil
  have hread := decodeQueryCursor_encodeQueryCursor row
  rw [hnil, decodeQueryCursor, decodeToken_nil] at hread
  cases hread

/-! ## Pages -/

/-- The queries that the filter keeps, in the order of their ids. -/
def queryListing (querySetId : String) (since : Option AnyDateTime) (table : List (QueryRow F)) :
    List (QueryRow F) :=
  queryIdOrder.sort (table.filter fun row =>
    (listQueriesWhere querySetId (since.map uuidv7LowerBoundFromIso) row).holds)

section Pages

variable {querySetId : String} {since : Option AnyDateTime} {table : List (QueryRow F)}

omit [PyFloat F] in
theorem separates_queryIdOrder (hids : (table.map QueryRow.idText).Nodup) :
    queryIdOrder.Separates table := by
  intro a ha b hb hab hba
  exact List.inj_on_of_nodup_map hids ha hb (SqlOrder.eq_of_ofLinearOrder hab hba)

omit [PyFloat F] in
theorem pairwise_queryListing (hids : (table.map QueryRow.idText).Nodup) :
    (queryListing querySetId since table).Pairwise fun a b => queryIdOrder.lt a b = true := by
  refine SqlOrder.pairwise_lt_sort _ ?_ (hids.of_map.filter _)
  intro a ha b hb
  exact separates_queryIdOrder hids a (List.mem_of_mem_filter ha) b (List.mem_of_mem_filter hb)

/-- The cursor of a row asks for the rows behind it. -/
theorem listQueriesInSet_next (hids : (table.map QueryRow.idText).Nodup) (limit : ℕ)
    {earlier rows : List (QueryRow F)} {row : QueryRow F}
    (hlisting : queryListing querySetId since table = earlier ++ row :: rows) :
    listQueriesInSet querySetId limit since table (some (encodeQueryCursor F row.idText)) =
      some (pageOfLimit (fun last => encodeQueryCursor F last.idText) limit
        (countQueriesForSet querySetId (since.map uuidv7LowerBoundFromIso) table)
        (rows.take limit)) := by
  have hsorted : (queryListing querySetId since table).Pairwise _ := pairwise_queryListing hids
  have hafter : queryIdOrder.sort (table.filter fun other =>
      ((listQueriesWhere querySetId (since.map uuidv7LowerBoundFromIso) other).and
        (some (decide (row.idText < other.idText)))).holds) = rows := by
    rw [SqlOrder.sort_filter_and _ (separates_queryIdOrder hids)]
    change (queryListing querySetId since table).filter _ = rows
    rw [hlisting] at hsorted ⊢
    simp only [Truth.holds_some]
    exact SqlOrder.filter_after queryIdOrder hsorted
  rw [listQueriesInSet, decodeIfPresent_of_ne_nil (encodeQueryCursor_ne_nil row),
    decodeQueryCursor_encodeQueryCursor]
  simp only [Option.map_some, listQueriesForSetCursor, select, hafter]

/-- Every response counts the queries that the filter keeps. -/
theorem totalCount_listQueriesInSet {limit : ℕ} {cursor : Option (List Char)}
    {page : Page (QueryRow F) (List Char)}
    (hpage : listQueriesInSet querySetId limit since table cursor = some page) :
    page.totalCount = (queryListing querySetId since table).length := by
  obtain ⟨afterId, -, rfl⟩ := Option.map_eq_some_iff.mp hpage
  rw [totalCount_pageOfLimit, queryListing, (SqlOrder.sort_perm _ _).length_eq,
    countQueriesForSet, List.countP_eq_length_filter]
  rfl

/-- A client receives the queries that the filter keeps, and every response counts them. -/
theorem exists_follows_queries (hids : (table.map QueryRow.idText).Nodup) {limit : ℕ}
    (hlimit : 1 ≤ limit) :
    ∃ pages, Follows (listQueriesInSet querySetId limit since table) none pages ∧
      rowsOf pages = queryListing querySetId since table ∧
      ∀ page ∈ pages, page.totalCount = (rowsOf pages).length := by
  have hshows : ∀ earlier rows, queryListing querySetId since table = earlier ++ rows →
      (pageOfLimit (fun last => encodeQueryCursor F last.idText) limit
        (countQueriesForSet querySetId (since.map uuidv7LowerBoundFromIso) table)
        (rows.take limit)).Shows
          (StandsBefore (queryListing querySetId since table)
            fun last => encodeQueryCursor F last.idText) rows :=
    fun _ _ h => pageOfLimit_shows hlimit (standsBefore_of_append h)
  obtain ⟨pages, hfollows, hrows⟩ := exists_follows_listing hshows rfl
    fun _ _ _ hlisting => listQueriesInSet_next hids limit hlisting
  refine ⟨pages, hfollows, hrows, ?_⟩
  intro page hpage
  obtain ⟨cursor, hrequest⟩ := hfollows.exists_request page hpage
  rw [totalCount_listQueriesInSet hrequest, hrows]

end Pages

/-! ## The queries since an instant -/

/-- The queries of a set whose ids were made at an instant or after it, to the millisecond. -/
def createdSince (querySetId : String) (since : AnyDateTime) (table : List (QueryRow F)) :
    List (QueryRow F) :=
  table.filter fun row => row.querySetId == querySetId && floorMs since ≤ row.id.timestamp

/-- A client that follows the cursors receives the queries since the instant, and every
response counts them. -/
def ListsSince (F : Type) [PyFloat F] (since : AnyDateTime) : Prop :=
  ∀ (querySetId : String) (limit : ℕ) (table : List (QueryRow F)),
    1 ≤ limit → limit ≤ maxPageLimit → (table.map QueryRow.idText).Nodup →
      ∃ pages, Follows (listQueriesInSet querySetId limit (some since) table) none pages ∧
        (rowsOf pages).Perm (createdSince querySetId since table) ∧
        ∀ page ∈ pages, page.totalCount = (rowsOf pages).length

/-- An exact bound keeps the right queries. -/
theorem BoundExact.listsSince {since : AnyDateTime} (h : BoundExact since) :
    ListsSince F since := by
  intro querySetId limit table hlimit _ hids
  have hpages : ∃ pages, Follows (listQueriesInSet querySetId limit (some since) table) none pages ∧
      rowsOf pages = queryListing querySetId (some since) table ∧
      ∀ page ∈ pages, page.totalCount = (rowsOf pages).length := exists_follows_queries hids hlimit
  obtain ⟨pages, hfollows, hrows, htotal⟩ := hpages
  refine ⟨pages, hfollows, ?_, htotal⟩
  have hfilter : (table.filter fun row =>
      (listQueriesWhere querySetId ((some since).map uuidv7LowerBoundFromIso) row).holds) =
      createdSince querySetId since table := by
    refine List.filter_congr fun row _ => ?_
    simp [listQueriesWhere, allOf, whereLowerBound, QueryRow.idText, h row.id]
  rw [hrows, queryListing, hfilter]
  exact SqlOrder.sort_perm _ _

/-- The bound is exact, and the list keeps the queries since the instant, unless the instant is
a whole millisecond before 1970. -/
theorem sinceFilter_exact_iff (since : AnyDateTime) :
    BoundExact since ∧ ListsSince F since ↔ -1000 < since.microseconds := by
  rw [← boundExact_iff]
  exact ⟨And.left, fun h => ⟨h, h.listsSince⟩⟩

theorem isDateTime_lastSecond : IsDateTime 1969 12 31 23 59 59 0 := by decide

/-- One second before 1970. -/
def lastSecondOf1969 : AnyDateTime where
  fields := ⟨1969, 12, 31, 23, 59, 59, 0, isDateTime_lastSecond⟩
  utcoffset := none

/-- The bound of the last second of 1969 is in the far future. -/
example : uuidv7LowerBoundFromIso lastSecondOf1969 =
    "ffffffff-fc18-7000-8000-000000000000".toList := by decide +kernel

theorem not_sinceFilter_exact_lastSecond :
    ¬(BoundExact lastSecondOf1969 ∧ ListsSince SampleFloat lastSecondOf1969) := by
  rintro ⟨h, -⟩
  -- a query of the first millisecond of 1970
  have hfirst := (h ⟨0, 0, 0, by decide, by decide, by decide⟩).mpr (by decide +kernel)
  exact absurd hfirst (by decide +kernel)

end RelyLoop.Paging
