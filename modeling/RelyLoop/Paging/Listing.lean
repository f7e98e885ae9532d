import RelyLoop.Paging.Sort
import Mathlib.Data.List.Nodup
import Mathlib.Data.String.Basic

/-!
# Sorted listings

The rows that a list query selects after a cursor are those behind the cursor's row in the
sorted listing. A client that follows the cursors therefore receives the whole listing.
-/

namespace RelyLoop.Paging

open Python

variable {R F : Type}

/-- The order of a list request: an explicit sort, or the relevance of the rows, or their
creation times. -/
structure ListOrder (R F : Type) where
  parsedSort : Option (ParsedSort R F)
  createdAt : R → DateTime
  /-- The rank buckets, on the relevance path. -/
  rankBucket : Option (R → ℤ)

namespace ListOrder

variable (order : ListOrder R F)

/-- `keyset_parsed`. -/
def keysetParsed : Option (ParsedSort R F) :=
  match order.rankBucket with
  | none => order.parsedSort
  | some _ => none

/-- `order_col`. -/
def orderCol : DefaultColumn R F :=
  match order.rankBucket with
  | none => ⟨.timestamp, order.createdAt⟩
  | some rankBucket => ⟨.integer, rankBucket⟩

/-- The order of the rows. -/
def rowOrder (db : Database F) (idCol : R → String) : SqlOrder R :=
  SqlOrder.orderBy (orderByClauses db idCol order.keysetParsed order.orderCol)

/-- The rows of a list query: those that the filter keeps, after the cursor. -/
def listRows (db : Database F) (idCol : R → String) (filter : R → Truth)
    (cursor : Option (CursorValue F × String)) (fetch : ℕ) (table : List R) : Option (List R) :=
  match cursor with
  | none => some (select filter (order.rowOrder db idCol) fetch table)
  | some (cursorValue, cursorId) =>
    (keysetPredicate db idCol order.keysetParsed cursorValue cursorId order.orderCol).map
      fun keyset =>
        select (fun row => (filter row).and (keyset row)) (order.rowOrder db idCol) fetch table

/-- The sorted rows that the filter keeps. -/
def listing (db : Database F) (idCol : R → String) (filter : R → Truth) (table : List R) :
    List R :=
  (order.rowOrder db idCol).sort (table.filter fun row => (filter row).holds)

variable [PyFloat F]

/-- The cursor that a router decodes: on the relevance path it holds an integer. -/
def decodeCursor (raw : List Char) : Option (CursorValue F × String) :=
  match order.rankBucket with
  | none => decodeValueCursor raw (cursorValueIsDatetime order.parsedSort)
  | some _ =>
    match decodeValueCursor (F := F) raw false with
    | some (.integer rank, rowId) => some (.integer rank, rowId)
    | _ => none

/-- The cursor of the last row of a page. -/
def encodeCursor (idCol : R → String) (last : R) : List Char :=
  encodeValueCursor (cursorValueOf order.keysetParsed order.orderCol last) (idCol last)

end ListOrder

/-- `if cursor:` a router decodes it. -/
def decodeIfPresent {V : Type} (decode : List Char → Option V) :
    Option (List Char) → Option (Option V)
  | none => some none
  | some [] => some none
  | some (c :: cs) => (decode (c :: cs)).map some

theorem decodeIfPresent_of_ne_nil {V : Type} {decode : List Char → Option V} {raw : List Char}
    (hraw : raw ≠ []) : decodeIfPresent decode (some raw) = (decode raw).map some := by
  cases raw with
  | nil => exact absurd rfl hraw
  | cons c cs => rfl

/-- The response of a list endpoint. -/
def listPage [PyFloat F] (db : Database F) (idCol : R → String) (order : ListOrder R F)
    (decode : List Char → Option (CursorValue F × String)) (filter countFilter : R → Truth)
    (fetch : ℕ) (pageOf : (R → List Char) → ℕ → List R → Page R (List Char)) (table : List R)
    (cursor : Option (List Char)) : Option (Page R (List Char)) :=
  match decodeIfPresent decode cursor with
  | none => none
  | some decoded =>
    (order.listRows db idCol filter decoded fetch table).map
      (pageOf (order.encodeCursor idCol) (table.countP fun row => (countFilter row).holds))

/-! ## The rows after a cursor -/

section Keyset

variable (db : Database F) (idCol : R → String) (parsed : Option (ParsedSort R F))
  (defaultCol : DefaultColumn R F)

/-- Rows that the clauses do not tell apart have the same id. -/
theorem idCol_eq_of_orderBy {a b : R}
    (hab : (SqlOrder.orderBy (orderByClauses db idCol parsed defaultCol)).lt a b = false)
    (hba : (SqlOrder.orderBy (orderByClauses db idCol parsed defaultCol)).lt b a = false) :
    idCol a = idCol b := by
  -- the id is the second clause of either order
  have hsecond : ∃ clause, orderByClauses db idCol parsed defaultCol =
      [clause, (db.text.comap idCol).reverse] := by
    cases parsed <;> exact ⟨_, rfl⟩
  obtain ⟨clause, hclauses⟩ := hsecond
  rw [hclauses] at hab hba
  obtain ⟨hid, hid'⟩ := SqlOrder.eq_of_orderBy_pair hab hba
  exact db.text_total _ _ hid' hid

/-- The condition of a cursor keeps the rows that come after the cursor's row. -/
theorem keysetPredicate_cursorValueOf (row : R) :
    ∃ keyset, keysetPredicate db idCol parsed (cursorValueOf parsed defaultCol row) (idCol row)
        defaultCol = some keyset ∧
      ∀ other, (keyset other).holds =
        (SqlOrder.orderBy (orderByClauses db idCol parsed defaultCol)).lt row other := by
  rcases parsed with - | ⟨column, desc⟩
  · refine ⟨_, by rw [keysetPredicate, cursorValueOf, ColumnKind.bind_cursorValue]; rfl, ?_⟩
    intro other
    cases hbefore : (db.order defaultCol.kind).lt (defaultCol.value other)
      (defaultCol.value row) <;> simp [orderByClauses, SqlOrder.eq, hbefore]
  · refine ⟨_, by rw [keysetPredicate, cursorValueOf, ColumnKind.bind_cursorValue]; rfl, ?_⟩
    intro other
    -- the row and the other may be null, in either direction
    cases hrow : column.value row with
    | none => cases hother : column.value other <;> cases desc <;> simp [orderByClauses, hrow, hother]
    | some v =>
      cases hother : column.value other with
      | none => cases desc <;> simp [orderByClauses, hrow, hother]
      | some w =>
        cases desc with
        | false =>
          cases hbefore : (db.order column.kind).lt v w <;>
            simp [orderByClauses, SqlOrder.eq, hrow, hother, hbefore]
        | true =>
          cases hbefore : (db.order column.kind).lt w v <;>
            simp [orderByClauses, SqlOrder.eq, hrow, hother, hbefore]

end Keyset

section Pages

variable (db : Database F) (idCol : R → String) (order : ListOrder R F) (filter : R → Truth)
  {table : List R}

theorem separates_of_nodup (hids : (table.map idCol).Nodup) :
    (order.rowOrder db idCol).Separates table := by
  intro a ha b hb hab hba
  exact List.inj_on_of_nodup_map hids ha hb (idCol_eq_of_orderBy db idCol _ _ hab hba)

theorem listing_perm (table : List R) : (order.listing db idCol filter table).Perm
    (table.filter fun row => (filter row).holds) :=
  SqlOrder.sort_perm _ _

/-- The listing is strictly in order. -/
theorem pairwise_listing (hids : (table.map idCol).Nodup) :
    (order.listing db idCol filter table).Pairwise fun a b =>
      (order.rowOrder db idCol).lt a b = true := by
  refine SqlOrder.pairwise_lt_sort _ ?_ (hids.of_map.filter _)
  intro a ha b hb
  exact separates_of_nodup db idCol order hids a (List.mem_of_mem_filter ha) b (List.mem_of_mem_filter hb)

/-- A query with the cursor of a row of the listing returns the rows behind it. -/
theorem listRows_next (hids : (table.map idCol).Nodup) {earlier rows : List R} {row : R}
    (hlisting : order.listing db idCol filter table = earlier ++ row :: rows) (fetch : ℕ) :
    order.listRows db idCol filter
        (some (cursorValueOf order.keysetParsed order.orderCol row, idCol row)) fetch table =
      some (rows.take fetch) := by
  obtain ⟨keyset, hkeyset, hholds⟩ :=
    keysetPredicate_cursorValueOf db idCol order.keysetParsed order.orderCol row
  have hsorted := pairwise_listing db idCol order filter hids
  have hafter : (order.rowOrder db idCol).sort
      (table.filter fun other => ((filter other).and (keyset other)).holds) = rows := by
    rw [SqlOrder.sort_filter_and _ (separates_of_nodup db idCol order hids)]
    change (order.listing db idCol filter table).filter _ = rows
    rw [hlisting] at hsorted ⊢
    simp only [hholds]
    exact SqlOrder.filter_after _ hsorted
  rw [ListOrder.listRows, hkeyset, Option.map_some, select, hafter]

variable [PyFloat F]

/-- A router reads the cursors that it writes. -/
theorem decodeCursor_encodeCursor (row : R) :
    order.decodeCursor (order.encodeCursor idCol row) =
      some (cursorValueOf order.keysetParsed order.orderCol row, idCol row) := by
  rw [ListOrder.decodeCursor, ListOrder.encodeCursor]
  rcases order with ⟨parsed, createdAt, - | rankBucket⟩
  · rcases parsed with - | parsed
    · have h := decodeValueCursor_encodeValueCursor (F := F) .timestamp (some (createdAt row))
        (idCol row)
      simp only [decide_true] at h
      simp only [ListOrder.keysetParsed, ListOrder.orderCol, cursorValueOf, cursorValueIsDatetime, h]
    · have h := decodeValueCursor_encodeValueCursor parsed.column.kind (parsed.column.value row)
        (idCol row)
      simp only [parsed.column.isTimestamp] at h
      simp only [ListOrder.keysetParsed, cursorValueOf, cursorValueIsDatetime, h]
  · have h := decodeValueCursor_encodeValueCursor (F := F) .integer (some (rankBucket row))
      (idCol row)
    simp only [reduceCtorEq, decide_false] at h
    simp only [ListOrder.keysetParsed, ListOrder.orderCol, cursorValueOf, h]
    rfl

theorem encodeCursor_ne_nil (row : R) : order.encodeCursor idCol row ≠ [] := by
  rw [ListOrder.encodeCursor]
  cases order.keysetParsed with
  | none => exact encodeValueCursor_ne_nil _ _ _
  | some parsed => exact encodeValueCursor_ne_nil _ _ _

/-- A client of a list endpoint receives the whole listing, if its pages are cut from the
selected rows. -/
theorem exists_follows_listPage (hids : (table.map idCol).Nodup)
    (decode : List Char → Option (CursorValue F × String))
    (hdecode : ∀ row, decode (order.encodeCursor idCol row) =
      some (cursorValueOf order.keysetParsed order.orderCol row, idCol row))
    (countFilter : R → Truth) (fetch : ℕ)
    (pageOf : (R → List Char) → ℕ → List R → Page R (List Char))
    (hshows : ∀ total earlier rows, order.listing db idCol filter table = earlier ++ rows →
      (pageOf (order.encodeCursor idCol) total (rows.take fetch)).Shows
        (StandsBefore (order.listing db idCol filter table) (order.encodeCursor idCol)) rows) :
    ∃ pages, Follows (listPage db idCol order decode filter countFilter fetch pageOf table) none
        pages ∧ rowsOf pages = order.listing db idCol filter table := by
  refine exists_follows_listing (hshows (table.countP fun row => (countFilter row).holds)) rfl ?_
  intro earlier row rows hlisting
  rw [listPage, decodeIfPresent_of_ne_nil (encodeCursor_ne_nil idCol order row), hdecode,
    Option.map_some]
  simp only [listRows_next db idCol order filter hids hlisting, Option.map_some]

/-- Every response counts the rows that the count function's filter keeps. -/
theorem totalCount_listPage {decode : List Char → Option (CursorValue F × String)}
    {countFilter : R → Truth} {fetch : ℕ}
    {pageOf : (R → List Char) → ℕ → List R → Page R (List Char)}
    (htotal : ∀ cursorOf total rows, (pageOf cursorOf total rows).totalCount = total)
    {cursor : Option (List Char)} {page : Page R (List Char)}
    (hpage : listPage db idCol order decode filter countFilter fetch pageOf table cursor =
      some page) :
    page.totalCount = table.countP fun row => (countFilter row).holds := by
  rw [listPage] at hpage
  split at hpage
  · cases hpage
  · obtain ⟨rows, -, rfl⟩ := Option.map_eq_some_iff.mp hpage
    exact htotal _ _ _

end Pages

/-! ## Every row once -/

/-- The list request of a table, with the next cursor of `list_studies`. -/
def sortedPage [PyFloat F] (db : Database F) (idCol : R → String) (order : ListOrder R F)
    (limit : ℕ) (table : List R) : Option (List Char) → Option (Page R (List Char)) :=
  listPage db idCol order order.decodeCursor (fun _ => some true) (fun _ => some true) limit
    (fun cursorOf total => pageOfLimit cursorOf limit total) table

/-- A client that follows the next cursors visits every row once, in the order of the
`ORDER BY`, and stops. -/
theorem every_row_visited_once [PyFloat F] (db : Database F) (idCol : R → String)
    (order : ListOrder R F) {table : List R} (hids : (table.map idCol).Nodup) {limit : ℕ}
    (hlimit : 1 ≤ limit) :
    ∃ pages, Follows (sortedPage db idCol order limit table) none pages ∧
      (rowsOf pages).Perm table ∧
      (rowsOf pages).Pairwise fun a b => (SqlOrder.orderBy
        (orderByClauses db idCol order.keysetParsed order.orderCol)).lt a b = true := by
  have hlisting : ∀ total earlier rows,
      order.listing db idCol (fun _ => some true) table = earlier ++ rows →
      (pageOfLimit (order.encodeCursor idCol) limit total (rows.take limit)).Shows
        (StandsBefore (order.listing db idCol (fun _ => some true) table)
          (order.encodeCursor idCol)) rows :=
    fun _ _ _ h => pageOfLimit_shows hlimit (standsBefore_of_append h)
  obtain ⟨pages, hfollows, hrows⟩ := exists_follows_listPage db idCol order _ hids
    order.decodeCursor (decodeCursor_encodeCursor idCol order) (fun _ => some true) limit
    (fun cursorOf total => pageOfLimit cursorOf limit total) hlisting
  refine ⟨pages, hfollows, ?_, ?_⟩
  · rw [hrows]
    have hperm := listing_perm db idCol order (fun _ => some true) table
    simpa only [Truth.holds_some, List.filter_true] using hperm
  · rw [hrows]
    exact pairwise_listing db idCol order _ hids

/-- Two floats, for runs on small tables. -/
inductive SampleFloat where
  | quarter
  | half
  deriving DecidableEq

instance : PyFloat SampleFloat where
  text
    | .quarter => "0.25".toList
    | .half => "0.5".toList
  read token :=
    if token = "0.25".toList then some .quarter
    else if token = "0.5".toList then some .half
    else none
  text_ne_nil f := by cases f <;> decide
  isTokenChar_of_mem f := by cases f <;> exact List.all_eq_true.mp rfl
  readPlainToken_text f := by cases f <;> rfl
  read_text f := by cases f <;> decide

/-- A database that sorts texts by their characters. -/
def sampleDatabase : Database SampleFloat where
  text := SqlOrder.ofLinearOrder
  text_total _ _ := SqlOrder.eq_of_ofLinearOrder
  float := (SqlOrder.ofLinearOrder : SqlOrder ℕ).comap fun
    | .quarter => 0
    | .half => 1

/-- Midnight of a day in January. -/
def january (day : ℕ) (h : 1 ≤ day ∧ day ≤ 31) : DateTime where
  year := 2026
  month := 1
  day := day
  hour := 0
  minute := 0
  second := 0
  microsecond := 0
  isDateTime := ⟨by decide, by decide, by decide, by decide, h.1, h.2, by decide, by decide,
    by decide, by decide⟩

theorem first_day_le : 1 ≤ 1 ∧ 1 ≤ 31 := by decide

theorem best_metric_not_timestamp :
    ColumnKind.float = .timestamp ↔ "best_metric" ∈ datetimeSortCols := by
  decide

/-- `sort=best_metric:desc`. -/
def bestMetricFirst : ListOrder (String × Option SampleFloat) SampleFloat where
  parsedSort := some ⟨⟨"best_metric", .float, Prod.snd, best_metric_not_timestamp⟩, true⟩
  createdAt _ := january 1 first_day_le
  rankBucket := none

theorem every_row_visited_once_bestMetricFirst :
    ∃ pages, Follows (sortedPage sampleDatabase Prod.fst bestMetricFirst 2
        [("a", none), ("b", some .half), ("c", none), ("d", some .quarter), ("e", some .half)])
        none pages ∧
      (rowsOf pages).Perm
        [("a", none), ("b", some .half), ("c", none), ("d", some .quarter), ("e", some .half)] ∧
      (rowsOf pages).Pairwise fun a b => (SqlOrder.orderBy (orderByClauses sampleDatabase Prod.fst
        bestMetricFirst.keysetParsed bestMetricFirst.orderCol)).lt a b = true :=
  every_row_visited_once sampleDatabase Prod.fst bestMetricFirst (by decide) (by decide)

end RelyLoop.Paging
