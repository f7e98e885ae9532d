import RelyLoop.Python.Csv
import RelyLoop.Python.Text

/-!
# CSV uploads of queries

`parse_queries_csv` makes a row of each record of an upload. It lets the errors of the CSV
reader through, and keeps the fields beyond the header under the key `None`.
-/

namespace RelyLoop.Queries

open Python Csv

/-! ## The parser -/

/-- `_REQUIRED_COLUMNS`. -/
def requiredColumns : List String := ["query_text"]

/-- `_OPTIONAL_COLUMNS`. -/
def optionalColumns : List String := ["reference_answer"]

/-- `_MAX_ROWS`. -/
def maxRows : ℕ := 10000

/-- Where `InvalidCsvError` is raised. -/
inductive InvalidCsvError where
  | notUtf8
  | noHeader
  | missingColumns (missing : List String)
  | tooManyRows
  | emptyQueryText (row : ℕ)
  deriving DecidableEq

/-- The text of the error, with that of the decoder's error. -/
def InvalidCsvError.message (decodeError : String) : InvalidCsvError → String
  | notUtf8 => "csv body is not valid UTF-8: " ++ decodeError
  | noHeader => "csv body has no header row"
  | missingColumns missing =>
    "csv missing required column(s): [" ++ ", ".intercalate (missing.map fun name =>
      "'" ++ name ++ "'") ++ "]"
  | tooManyRows => "csv exceeds max row count (" ++ toString maxRows ++ ")"
  | emptyQueryText row => "row " ++ toString row ++ ": empty `query_text`"

/-- What may be raised: the parser's own error, or `csv.Error`. -/
inductive CsvException where
  | invalid (e : InvalidCsvError)
  | csvError (message : String)
  deriving DecidableEq

/-- A row for `bulk_create_queries`. -/
structure UploadRow where
  queryText : String
  referenceAnswer : Option String
  queryMetadata : Option (Dict (Option String) Value)

/-- `value or None` of a name's value, which is a text or `None`. -/
def textOrNone : Option Value → Option String
  | some (.text s) => if s = "" then none else some s
  | _ => none

/-- The `query_text` of a row, or the empty text. -/
def queryTextOf (fieldnames record : List String) : String :=
  (textOrNone ((dictRow fieldnames record).get? (some "query_text"))).getD ""

/-- `not query_text.strip()`. -/
def isBlank (fieldnames record : List String) : Bool :=
  strip (queryTextOf fieldnames record).toList = []

/-- The key is one of the columns. -/
def isColumn (columns : List String) (key : Option String) : Bool :=
  key.any fun name => columns.contains name

/-- The values under the other keys. -/
def metadataOf (fieldnames record : List String) : Dict (Option String) Value :=
  (dictRow fieldnames record).filterItems fun key value =>
    !isColumn requiredColumns key && !isColumn optionalColumns key && value.isTruthy

/-- `metadata or None`. -/
def orNone (d : Dict (Option String) Value) : Option (Dict (Option String) Value) :=
  if d.entries = [] then none else some d

/-- The row of a record. -/
def uploadRow (fieldnames record : List String) : UploadRow where
  queryText := queryTextOf fieldnames record
  referenceAnswer := textOrNone ((dictRow fieldnames record).get? (some "reference_answer"))
  queryMetadata := orNone (metadataOf fieldnames record)

/-- The loop over the rows of the `DictReader`, which skips empty records. -/
def uploadRows (fieldnames : List String) : ℕ → Records → Except CsvException (List UploadRow)
  | _, .done => .ok []
  | _, .failed message => .error (.csvError message)
  | i, .record fields rest =>
    if fields = [] then uploadRows fieldnames i rest
    else if maxRows + 1 < i then .error (.invalid .tooManyRows)
    else if isBlank fieldnames fields then .error (.invalid (.emptyQueryText i))
    else (uploadRows fieldnames (i + 1) rest).map (uploadRow fieldnames fields :: ·)

/-- `body.decode("utf-8")`. -/
def decodeUtf8 (body : List UInt8) : Option (List Char) :=
  (ByteArray.mk body.toArray).utf8Decode?.map Array.toList

/-- `parse_queries_csv`. -/
def parseQueriesCsv (body : List UInt8) : Except CsvException (List UploadRow) :=
  match decodeUtf8 body with
  | none => .error (.invalid .notUtf8)
  | some text =>
    match reader text with
    | .done => .error (.invalid .noHeader)
    | .failed message => .error (.csvError message)
    | .record fieldnames records =>
      let missing := requiredColumns.filter fun name => !fieldnames.contains name
      if missing ≠ [] then .error (.invalid (.missingColumns missing))
      else uploadRows fieldnames 2 records

/-! ## What an upload may give -/

/-- The row of a record: the fields are stored under their names. -/
structure IsRowOf (fieldnames record : List String) (row : UploadRow) : Prop where
  queryText : ("query_text", row.queryText) ∈ fieldnames.zip record
  notBlank : strip row.queryText.toList ≠ []
  referenceAnswer : ∀ s ∈ row.referenceAnswer,
    ("reference_answer", s) ∈ fieldnames.zip record ∧ s ≠ ""
  queryMetadata : ∀ metadata ∈ row.queryMetadata, metadata.entries ≠ [] ∧
    ∀ e ∈ metadata.entries, ∃ name s, e = (some name, .text s) ∧ name ∈ fieldnames ∧ s ≠ "" ∧
      (name, s) ∈ fieldnames.zip record

/-- `InvalidCsvError` is raised, or each data record of the whole file has its row. -/
def MeetsContract (body : List UInt8) : Except CsvException (List UploadRow) → Prop
  | .error (.invalid _) => True
  | .error (.csvError _) => False
  | .ok rows => ∃ text fieldnames records, decodeUtf8 body = some text ∧
      reader text = .record fieldnames records ∧ records.complete = true ∧
      rows.length ≤ maxRows ∧ List.Forall₂ (IsRowOf fieldnames) records.rows rows

/-- The data records are refused: there are too many of them, or one has no query. -/
def Refused (fieldnames : List String) (data : List (List String)) : Prop :=
  maxRows < data.length ∨ ∃ record ∈ data, isBlank fieldnames record = true

/-- The file is refused for its encoding, its header or its data records, or it is read to its
end and no data record has more fields than the header. -/
def Uploadable (body : List UInt8) : Prop :=
  match decodeUtf8 body with
  | none => True
  | some text =>
    match reader text with
    | .done => True
    | .failed _ => False
    | .record fieldnames records =>
      "query_text" ∉ fieldnames ∨ Refused fieldnames records.rows ∨
        records.complete = true ∧ ∀ record ∈ records.rows, record.length ≤ fieldnames.length

/-! ## Rows -/

section Rows

variable {fieldnames record : List String}

/-- A text under a name is a field of that name. -/
theorem mem_zip_of_textOrNone {name s : String}
    (h : textOrNone ((dictRow fieldnames record).get? (some name)) = some s) :
    (name, s) ∈ fieldnames.zip record ∧ s ≠ "" := by
  rw [textOrNone.eq_def] at h
  split at h
  · rename_i s' hget
    split at h
    · cases h
    · rename_i hne
      obtain rfl := Option.some.inj h
      cases storedAs_of_get? hget with
      | text hmem => exact ⟨hmem, hne⟩
  · cases h

/-- A value that is kept as metadata is a field of a header, or holds the surplus fields. -/
theorem mem_metadataOf {e : Option String × Value}
    (h : e ∈ (metadataOf fieldnames record).entries) :
    (∃ name s, e = (some name, .text s) ∧ name ∈ fieldnames ∧ s ≠ "" ∧
      (name, s) ∈ fieldnames.zip record) ∨ fieldnames.length < record.length := by
  obtain ⟨key, value⟩ := e
  obtain ⟨hmem, hkeep⟩ := Dict.mem_filterItems.mp h
  cases storedAs_of_get? ((Dict.get?_eq_some_iff _ _ _).mpr hmem) with
  | @text name s hzip =>
    have htruthy : decide (s ≠ "") = true := (Bool.and_eq_true_iff.mp hkeep).2
    exact .inl ⟨name, s, rfl, (List.of_mem_zip hzip).1, of_decide_eq_true htruthy, hzip⟩
  | missing => exact absurd (Bool.and_eq_true_iff.mp hkeep).2 Bool.false_ne_true
  | surplus hlong => exact .inr hlong

/-- The surplus fields are kept as metadata. -/
theorem surplus_mem_metadataOf (h : fieldnames.length < record.length) :
    (none, Value.surplus (record.drop fieldnames.length)) ∈
      (metadataOf fieldnames record).entries := by
  refine Dict.mem_filterItems.mpr ⟨(Dict.get?_eq_some_iff _ _ _).mp (get?_dictRow_surplus h), ?_⟩
  have hne : record.drop fieldnames.length ≠ [] := by
    intro hnil
    have hlength := List.drop_eq_nil_iff.mp hnil
    omega
  exact decide_eq_true hne

/-- The row of a record that is not blank and has no surplus fields. -/
theorem isRowOf_uploadRow (hblank : isBlank fieldnames record = false)
    (hlength : record.length ≤ fieldnames.length) :
    IsRowOf fieldnames record (uploadRow fieldnames record) := by
  have hnotBlank : strip (queryTextOf fieldnames record).toList ≠ [] := of_decide_eq_false hblank
  refine ⟨?_, hnotBlank, fun s hs => mem_zip_of_textOrNone hs, ?_⟩
  · change ("query_text", queryTextOf fieldnames record) ∈ _
    rw [queryTextOf] at hnotBlank ⊢
    cases htext : textOrNone ((dictRow fieldnames record).get? (some "query_text")) with
    | none =>
      rw [htext] at hnotBlank
      exact absurd rfl hnotBlank
    | some s => exact (mem_zip_of_textOrNone htext).1
  · intro metadata hmetadata
    rw [uploadRow, orNone, Option.mem_ite_none_left] at hmetadata
    obtain ⟨hne, hsome⟩ := hmetadata
    obtain rfl := Option.some.inj hsome
    refine ⟨hne, fun e he => ?_⟩
    rcases mem_metadataOf he with h | hlong
    · exact h
    · omega

/-- A row with surplus fields stores them under no header. -/
theorem length_le_of_isRowOf (h : IsRowOf fieldnames record (uploadRow fieldnames record)) :
    record.length ≤ fieldnames.length := by
  by_contra hlong
  have hsurplus := surplus_mem_metadataOf (Nat.lt_of_not_le hlong)
  have hsome : (uploadRow fieldnames record).queryMetadata = some (metadataOf fieldnames record) :=
    if_neg (List.ne_nil_of_mem hsurplus)
  obtain ⟨name, s, heq, -⟩ := (h.queryMetadata _ hsome).2 _ hsurplus
  cases (Prod.mk.inj heq).1

end Rows

/-! ## The loop -/

section Loop

variable {fieldnames : List String} {records : Records} {i : ℕ}

/-- Too many records, or one without a query, are refused. -/
theorem uploadRows_of_refused (hi : i ≤ maxRows + 2)
    (h : maxRows + 2 < records.rows.length + i ∨
      ∃ record ∈ records.rows, isBlank fieldnames record = true) :
    ∃ e, uploadRows fieldnames i records = .error (.invalid e) := by
  have hnone (hrows : records.rows = []) : False := by
    rcases h with h | ⟨record, hmem, -⟩
    · rw [hrows, List.length_nil] at h
      omega
    · rw [hrows] at hmem
      cases hmem
  induction records generalizing i with
  | done => exact absurd rfl hnone
  | failed message => exact absurd rfl hnone
  | record fields rest ih =>
    rw [uploadRows]
    by_cases hfields : fields = []
    · rw [Records.rows, if_pos hfields] at h hnone
      rw [if_pos hfields]
      exact ih hi h hnone
    rw [Records.rows, if_neg hfields, List.length_cons] at h
    rw [if_neg hfields]
    by_cases hmany : maxRows + 1 < i
    · exact ⟨_, if_pos hmany⟩
    rw [if_neg hmany]
    by_cases hblank : isBlank fieldnames fields = true
    · exact ⟨_, if_pos hblank⟩
    rw [if_neg hblank]
    have hrest : maxRows + 2 < rest.rows.length + (i + 1) ∨
        ∃ record ∈ rest.rows, isBlank fieldnames record = true := by
      rcases h with h | ⟨record, hmem, hrecord⟩
      · exact .inl (by omega)
      · rcases List.mem_cons.mp hmem with rfl | hmem
        · exact absurd hrecord hblank
        · exact .inr ⟨record, hmem, hrecord⟩
    obtain ⟨e, he⟩ := ih (i := i + 1) (by omega) hrest (by
      intro hrows
      rcases hrest with hlength | ⟨record, hmem, -⟩
      · rw [hrows, List.length_nil] at hlength
        omega
      · rw [hrows] at hmem
        cases hmem)
    exact ⟨e, by rw [he]; rfl⟩

/-- Other records are read up to the end, or to the reader's error. -/
theorem uploadRows_of_not_refused (hlength : records.rows.length + i ≤ maxRows + 2)
    (hblank : ∀ record ∈ records.rows, isBlank fieldnames record = false) :
    uploadRows fieldnames i records = .ok (records.rows.map (uploadRow fieldnames)) ∧
        records.complete = true ∨
      (∃ message, uploadRows fieldnames i records = .error (.csvError message)) ∧
        records.complete = false := by
  induction records generalizing i with
  | done => exact .inl ⟨rfl, rfl⟩
  | failed message => exact .inr ⟨⟨message, rfl⟩, rfl⟩
  | record fields rest ih =>
    rw [uploadRows, Records.complete]
    by_cases hfields : fields = []
    · rw [Records.rows, if_pos hfields] at hlength hblank ⊢
      rw [if_pos hfields]
      exact ih hlength hblank
    rw [Records.rows, if_neg hfields] at hlength hblank ⊢
    rw [List.length_cons] at hlength
    rw [if_neg hfields, if_neg (by omega), hblank fields List.mem_cons_self,
      if_neg Bool.false_ne_true]
    rcases ih (i := i + 1) (by omega) fun record hmem => hblank record (List.mem_cons_of_mem _ hmem)
      with ⟨hok, hcomplete⟩ | ⟨⟨message, herror⟩, hfailed⟩
    · exact .inl ⟨by rw [hok]; rfl, hcomplete⟩
    · exact .inr ⟨⟨message, by rw [herror]; rfl⟩, hfailed⟩

end Loop

/-! ## The contract -/

/-- The rows of records that are not refused meet the contract when none has surplus fields. -/
theorem forall₂_isRowOf_iff {fieldnames : List String} {data : List (List String)}
    (hblank : ∀ record ∈ data, isBlank fieldnames record = false) :
    List.Forall₂ (IsRowOf fieldnames) data (data.map (uploadRow fieldnames)) ↔
      ∀ record ∈ data, record.length ≤ fieldnames.length := by
  rw [List.forall₂_map_right_iff, List.forall₂_same]
  constructor
  · exact fun h record hmem => length_le_of_isRowOf (h record hmem)
  · exact fun h record hmem => isRowOf_uploadRow (hblank record hmem) (h record hmem)

/-- The rows of a file with a header meet the contract when they are refused, or read to the end
without surplus fields. -/
theorem uploadRows_meets_iff {body : List UInt8} {text : List Char} {fieldnames : List String}
    {records : Records} (hdecode : decodeUtf8 body = some text)
    (hreader : reader text = .record fieldnames records) :
    MeetsContract body (uploadRows fieldnames 2 records) ↔ Refused fieldnames records.rows ∨
      records.complete = true ∧ ∀ record ∈ records.rows, record.length ≤ fieldnames.length := by
  by_cases hrefused : Refused fieldnames records.rows
  · have herror : ∃ e, uploadRows fieldnames 2 records = .error (.invalid e) :=
      uploadRows_of_refused (by decide) (hrefused.imp_left fun h => by omega)
    obtain ⟨e, he⟩ := herror
    rw [he]
    exact iff_of_true trivial (.inl hrefused)
  rw [or_iff_right hrefused]
  rw [Refused, not_or, not_lt, not_exists] at hrefused
  obtain ⟨hlength, hall⟩ := hrefused
  have hblank : ∀ record ∈ records.rows, isBlank fieldnames record = false := by
    intro record hmem
    exact Bool.eq_false_iff.mpr fun h => hall record ⟨hmem, h⟩
  have hbound : records.rows.length + 2 ≤ maxRows + 2 := by omega
  rcases uploadRows_of_not_refused hbound hblank with
    ⟨hok, hcomplete⟩ | ⟨⟨message, herror⟩, hfailed⟩
  · rw [hok, and_iff_right hcomplete, ← forall₂_isRowOf_iff hblank]
    constructor
    · rintro ⟨text', fieldnames', records', htext, hrecords, -, -, hrows⟩
      obtain rfl := Option.some.inj (hdecode.symm.trans htext)
      rw [hreader, Records.record.injEq] at hrecords
      obtain ⟨rfl, rfl⟩ := hrecords
      exact hrows
    · intro hrows
      refine ⟨text, fieldnames, records, hdecode, hreader, hcomplete, ?_, hrows⟩
      rwa [List.length_map]
  · rw [herror, hfailed]
    exact iff_of_false id fun h => Bool.false_ne_true h.1

/-- The parser meets its contract on the uploads that are refused or have no surplus fields, and
that the reader reads as far as the parser does. -/
theorem parseQueriesCsv_meets_iff (body : List UInt8) :
    MeetsContract body (parseQueriesCsv body) ↔ Uploadable body := by
  rw [parseQueriesCsv, Uploadable]
  cases hdecode : decodeUtf8 body with
  | none => exact Iff.rfl
  | some text =>
    cases hreader : reader text with
    | done => simp only [hreader, MeetsContract]
    | failed message => simp only [hreader, MeetsContract]
    | record fieldnames records =>
      simp only [hreader]
      by_cases hheader : "query_text" ∈ fieldnames
      · have hmissing : requiredColumns.filter (fun name => !fieldnames.contains name) = [] := by
          simp [requiredColumns, hheader]
        rw [if_neg (not_not.mpr hmissing), or_iff_right (not_not.mpr hheader)]
        exact uploadRows_meets_iff hdecode hreader
      · have hmissing : requiredColumns.filter (fun name => !fieldnames.contains name) ≠ [] := by
          simp [requiredColumns, hheader]
        rw [if_pos hmissing]
        exact iff_of_true trivial (.inl hheader)

/-- `b"query_text\nshoes,extra\n"`. -/
def surplusUpload : List UInt8 := "query_text\nshoes,extra\n".toUTF8.data.toList

theorem reader_surplusUpload : ∃ text, decodeUtf8 surplusUpload = some text ∧
    reader text = .record ["query_text"] (.record ["shoes", "extra"] .done) := by
  refine ⟨"query_text\nshoes,extra\n".toList, ?_, by decide +kernel⟩
  decide +kernel

theorem not_parseQueriesCsv_meets_surplus :
    ¬MeetsContract surplusUpload (parseQueriesCsv surplusUpload) := by
  obtain ⟨text, hdecode, hreader⟩ := reader_surplusUpload
  have hparse : parseQueriesCsv surplusUpload = uploadRows ["query_text"] 2
      (.record ["shoes", "extra"] .done) := by
    rw [parseQueriesCsv, hdecode]
    simp only [hreader]
    exact if_neg (by decide)
  rw [hparse, uploadRows_meets_iff hdecode hreader]
  rintro ((hmany | ⟨record, hmem, hblank⟩) | ⟨-, hlength⟩)
  · exact absurd hmany (by decide)
  · obtain rfl := List.mem_singleton.mp hmem
    exact absurd hblank (by decide +kernel)
  · -- the record has a field more than the header
    exact absurd (hlength _ List.mem_cons_self) (by decide)

end RelyLoop.Queries
