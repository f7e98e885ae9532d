import RelyLoop.Paging.Following
import RelyLoop.Paging.Sql
import RelyLoop.Python.DateTime
import RelyLoop.Python.Json

/-!
# Sort-aware cursors

`_sort.py` builds the `ORDER BY` of a list query and the condition that selects the rows
after a cursor. `_cursor.py` writes the cursors and reads them.
-/

namespace RelyLoop.Paging

open Python

/-! ## Columns -/

/-- The type of a column. -/
inductive ColumnKind where
  | text
  | integer
  | float
  | timestamp
  deriving DecidableEq

/-- The values of a column, as the driver returns them. -/
def ColumnKind.Value (F : Type) : ColumnKind → Type
  | .text => String
  | .integer => ℤ
  | .float => F
  | .timestamp => DateTime

/-- What the database decides: the collation of texts, which tells different texts apart,
and the order of floats. -/
structure Database (F : Type) where
  text : SqlOrder String
  text_total : ∀ a b, text.lt a b = false → text.lt b a = false → a = b
  float : SqlOrder F

/-- The order of the values of a column. -/
def Database.order {F : Type} (db : Database F) : (kind : ColumnKind) → SqlOrder (kind.Value F)
  | .text => db.text
  | .integer => (SqlOrder.ofLinearOrder : SqlOrder ℤ)
  | .float => db.float
  | .timestamp => (SqlOrder.ofLinearOrder : SqlOrder ℕ).comap DateTime.stamp

/-- `_DATETIME_SORT_COLS`. -/
def datetimeSortCols : List String := ["created_at", "completed_at", "ended_at"]

/-- A column of an allow-list of sort keys. -/
structure SortColumn (R F : Type) where
  name : String
  kind : ColumnKind
  value : R → Option (kind.Value F)
  isTimestamp : kind = .timestamp ↔ name ∈ datetimeSortCols

/-- The column of the default order. It has no null values. -/
structure DefaultColumn (R F : Type) where
  kind : ColumnKind
  value : R → kind.Value F

variable {R F : Type}

/-- `ParsedSort`. -/
structure ParsedSort (R F : Type) where
  column : SortColumn R F
  desc : Bool

/-- `parse_sort`. -/
def parseSort (s : Option String) (allowed : List (SortColumn R F)) : Option (ParsedSort R F) :=
  match s with
  | none => none
  | some s =>
    if s = "" then none
    else
      let colName := s.toList.takeWhile (· ≠ ':')
      let dirStr := (s.toList.dropWhile (· ≠ ':')).drop 1
      match allowed.find? fun column => column.name.toList = colName with
      | none => none
      | some column => some ⟨column, dirStr = "desc".toList⟩

/-! ## Cursors -/

/-- A value of a cursor, as Python holds it. -/
inductive CursorValue (F : Type) where
  | null
  | text (s : String)
  | integer (i : ℤ)
  | float (x : F)
  | datetime (d : DateTime)

/-- A row's value of a column. -/
def ColumnKind.cursorValue : (kind : ColumnKind) → Option (kind.Value F) → CursorValue F
  | _, none => .null
  | .text, some s => .text s
  | .integer, some i => .integer i
  | .float, some x => .float x
  | .timestamp, some d => .datetime d

/-- The parameter that the driver sends to be compared with a column. It refuses a value of
another type. -/
def ColumnKind.bind : (kind : ColumnKind) → CursorValue F → Option (Option (kind.Value F))
  | _, .null => some none
  | .text, .text s => some (some s)
  | .integer, .integer i => some (some i)
  | .float, .float x => some (some x)
  | .timestamp, .datetime d => some (some d)
  | _, _ => none

@[simp] theorem ColumnKind.bind_cursorValue (kind : ColumnKind) (value : Option (kind.Value F)) :
    kind.bind (kind.cursorValue value) = some value := by
  rcases value with - | value
  · cases kind <;> rfl
  · cases kind <;> rfl

/-- The value half of a cursor. -/
def CursorValue.encoded : CursorValue F → Json F
  | .null => .null
  | .text s => .str s
  | .integer i => .int i
  | .float x => .float x
  | .datetime d => .str (String.ofList d.isoformat)

variable [PyFloat F]

/-- `encode_value_cursor`. -/
def encodeValueCursor (value : CursorValue F) (rowId : String) : List Char :=
  encodeToken (F := F) {} (.list [value.encoded, .str rowId])

/-- `_decode_value_cursor_raw`. -/
def decodeValueCursor (raw : List Char) (datetimeValue : Bool) :
    Option (CursorValue F × String) :=
  match decodeToken (F := F) raw with
  | some (.list [rawValue, .str rowId]) =>
    match rawValue, datetimeValue with
    | .null, _ => some (.null, rowId)
    | .str s, true => (DateTime.fromisoformat s.toList).map fun d => (.datetime d, rowId)
    | .str s, false => some (.text s, rowId)
    | .int i, false => some (.integer i, rowId)
    | .float x, false => some (.float x, rowId)
    | _, _ => none
  | _ => none

/-- `cursor_value_is_datetime`. -/
def cursorValueIsDatetime (parsed : Option (ParsedSort R F)) : Bool :=
  match parsed with
  | none => true
  | some parsed => parsed.column.name ∈ datetimeSortCols

omit [PyFloat F] in
theorem CursorValue.isScalar_encoded (value : CursorValue F) : value.encoded.IsScalar := by
  cases value <;> trivial

/-- A cursor is read back, with the flag that belongs to its column. -/
theorem decodeValueCursor_encodeValueCursor (kind : ColumnKind) (value : Option (kind.Value F))
    (rowId : String) : decodeValueCursor (F := F) (encodeValueCursor (kind.cursorValue value) rowId)
      (decide (kind = .timestamp)) = some (kind.cursorValue value, rowId) := by
  have hplain : Separators.IsPlain {} := ⟨[' '], rfl, by simp [isJsonSpace]⟩
  have hscalar : ∀ item ∈ [(kind.cursorValue value).encoded, Json.str rowId], item.IsScalar := by
    intro item hitem
    rcases List.mem_cons.mp hitem with rfl | hitem
    · exact CursorValue.isScalar_encoded _
    · obtain rfl := List.mem_singleton.mp hitem
      trivial
  rw [decodeValueCursor, encodeValueCursor, decodeToken_encodeToken hplain hscalar]
  rcases value with - | value
  · cases kind <;> rfl
  · cases kind with
    | timestamp =>
      simp only [ColumnKind.cursorValue, CursorValue.encoded, decide_true, String.toList_ofList]
      exact congrArg (Option.map fun d => (CursorValue.datetime d, rowId))
        (DateTime.fromisoformat_isoformat value)
    | text => rfl
    | integer => rfl
    | float => rfl

/-- A cursor is not the empty text. -/
theorem encodeValueCursor_ne_nil (kind : ColumnKind) (value : Option (kind.Value F))
    (rowId : String) : encodeValueCursor (kind.cursorValue value) rowId ≠ [] := by
  intro hnil
  have hread := decodeValueCursor_encodeValueCursor kind value rowId
  rw [hnil, decodeValueCursor, decodeToken_nil] at hread
  cases hread

/-! ## Queries -/

omit [PyFloat F]

variable (db : Database F) (idCol : R → String)

/-- `order_by_clauses`. -/
def orderByClauses (parsed : Option (ParsedSort R F)) (defaultCol : DefaultColumn R F) :
    List (SqlOrder R) :=
  match parsed with
  | none =>
    [((db.order defaultCol.kind).comap defaultCol.value).reverse, (db.text.comap idCol).reverse]
  | some parsed =>
    let order := db.order parsed.column.kind
    let primary := if parsed.desc then order.reverse.withNulls true else order.withNulls false
    [primary.comap parsed.column.value, (db.text.comap idCol).reverse]

/-- `keyset_predicate`, for a cursor whose value the driver accepts. -/
def keysetPredicate (parsed : Option (ParsedSort R F)) (cursorValue : CursorValue F)
    (cursorId : String) (defaultCol : DefaultColumn R F) : Option (R → Truth) :=
  match parsed with
  | none =>
    (defaultCol.kind.bind cursorValue).map fun value row =>
      let order := db.order defaultCol.kind
      let col := some (defaultCol.value row)
      (order.less col value).or
        ((order.equals col value).and (some (db.text.lt (idCol row) cursorId)))
  | some parsed =>
    (parsed.column.kind.bind cursorValue).map fun value row =>
      let order := db.order parsed.column.kind
      let col := parsed.column.value row
      let earlierId : Truth := some (db.text.lt (idCol row) cursorId)
      if parsed.desc then
        if value.isNone then Truth.and (some col.isNone) earlierId
        else (order.less col value).or
          (((order.equals col value).and earlierId).or (some col.isNone))
      else if value.isNone then Truth.or (some col.isSome) (Truth.and (some col.isNone) earlierId)
      else (order.less value col).or ((order.equals col value).and earlierId)

/-- The value half of the cursor of a row. -/
def cursorValueOf (parsed : Option (ParsedSort R F)) (defaultCol : DefaultColumn R F) (row : R) :
    CursorValue F :=
  match parsed with
  | none => defaultCol.kind.cursorValue (some (defaultCol.value row))
  | some parsed => parsed.column.kind.cursorValue (parsed.column.value row)

end RelyLoop.Paging
