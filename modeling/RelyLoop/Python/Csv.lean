import RelyLoop.Python.Dict

/-!
# `csv`

The reader of the default dialect, which reads the lines of a text character by character,
and the rows of `DictReader`. A line break outside of quotes that does not end its line, and
a field that is too long, are errors.
-/

namespace RelyLoop.Python.Csv

/-! ## Records -/

/-- The states of the reader. -/
inductive State where
  | startRecord
  | startField
  | inField
  | inQuotedField
  | quoteInQuotedField
  | eatCrnl
  deriving DecidableEq

/-- What the reader holds of the record that it is reading. -/
structure Reader where
  state : State
  field : List Char
  fields : List String

/-- `parse_reset`. -/
def Reader.start : Reader := ⟨.startRecord, [], []⟩

/-- `field_size_limit()`. -/
def fieldLimit : ℕ := 131072

namespace Reader

/-- `parse_save_field`. -/
def saveField (r : Reader) (next : State) : Reader :=
  ⟨next, [], r.fields ++ [String.ofList r.field]⟩

/-- `parse_add_char`. -/
def addChar (r : Reader) (c : Char) (next : State) : Except String Reader :=
  if fieldLimit ≤ r.field.length then .error "field larger than field limit (131072)"
  else .ok ⟨next, r.field ++ [c], r.fields⟩

/-- A character at the start of a field, or the end of the line. -/
def startField (r : Reader) : Option Char → Except String Reader
  | none => .ok (r.saveField .startRecord)
  | some c =>
    if c = '\n' ∨ c = '\r' then .ok (r.saveField .eatCrnl)
    else if c = '"' then .ok { r with state := .inQuotedField }
    else if c = ',' then .ok (r.saveField .startField)
    else r.addChar c .inField

/-- The error of a line break that does not end its line. -/
def newlineError : String :=
  "new-line character seen in unquoted field - do you need to open the file with newline=''?"

/-- `parse_process_char`. The end of a line is `none`. -/
def processChar (r : Reader) (c : Option Char) : Except String Reader :=
  match r.state, c with
  | .startRecord, none => .ok r
  | .startRecord, some c =>
    if c = '\n' ∨ c = '\r' then .ok { r with state := .eatCrnl } else r.startField (some c)
  | .startField, c => r.startField c
  | .inField, none => .ok (r.saveField .startRecord)
  | .inField, some c =>
    if c = '\n' ∨ c = '\r' then .ok (r.saveField .eatCrnl)
    else if c = ',' then .ok (r.saveField .startField)
    else r.addChar c .inField
  | .inQuotedField, none => .ok r
  | .inQuotedField, some c =>
    if c = '"' then .ok { r with state := .quoteInQuotedField } else r.addChar c .inQuotedField
  | .quoteInQuotedField, none => .ok (r.saveField .startRecord)
  | .quoteInQuotedField, some c =>
    if c = '"' then r.addChar c .inQuotedField
    else if c = ',' then .ok (r.saveField .startField)
    else if c = '\n' ∨ c = '\r' then .ok (r.saveField .eatCrnl)
    else r.addChar c .inField
  | .eatCrnl, none => .ok { r with state := .startRecord }
  | .eatCrnl, some c =>
    if c = '\n' ∨ c = '\r' then .ok r
    else .error newlineError

/-- A line, and its end. -/
def processLine (r : Reader) (line : List Char) : Except String Reader :=
  (line.map some ++ [none]).foldlM processChar r

end Reader

/-- The lines of a `StringIO`, with their line feeds. -/
def linesOf : List Char → List (List Char)
  | [] => []
  | c :: text =>
    if c = '\n' then [c] :: linesOf text
    else
      match linesOf text with
      | [] => [[c]]
      | line :: lines => (c :: line) :: lines

/-- What a reader gives, one record after the other, until it ends or fails. -/
inductive Records where
  | done
  | failed (message : String)
  | record (fields : List String) (rest : Records)
  deriving DecidableEq

/-- The records of the lines. A record ends with a line, unless it is inside of quotes. -/
def readRecords : Reader → List (List Char) → Records
  | r, [] =>
    if r.field ≠ [] ∨ r.state = .inQuotedField then
      .record (r.saveField .startRecord).fields .done
    else .done
  | r, line :: lines =>
    match r.processLine line with
    | .error message => .failed message
    | .ok r' =>
      if r'.state = .startRecord then .record r'.fields (readRecords .start lines)
      else readRecords r' lines

/-- `csv.reader(StringIO(text))`. -/
def reader (text : List Char) : Records := readRecords .start (linesOf text)

namespace Records

/-- The records that are not empty, up to the end or an error. -/
def rows : Records → List (List String)
  | done => []
  | failed _ => []
  | record fields rest => if fields = [] then rest.rows else fields :: rest.rows

/-- The reader has come to the end of the text. -/
def complete : Records → Bool
  | done => true
  | failed _ => false
  | record _ rest => rest.complete

end Records

/-! ## `DictReader` -/

/-- A value of a row of `DictReader`: a field, `None` for a field that is missing, or the
fields beyond the header. -/
inductive Value where
  | text (s : String)
  | missing
  | surplus (fields : List String)
  deriving DecidableEq

/-- `bool(value)`. -/
def Value.isTruthy : Value → Bool
  | text s => s ≠ ""
  | missing => false
  | surplus fields => fields ≠ []

/-- The row that `DictReader` makes of a record. The key `None` is `none`. -/
def dictRow (fieldnames row : List String) : Dict (Option String) Value :=
  let d := Dict.ofList ((fieldnames.zip row).map fun e => (some e.1, Value.text e.2))
  if fieldnames.length < row.length then d.set none (.surplus (row.drop fieldnames.length))
  else (fieldnames.drop row.length).foldl (fun d key => d.set (some key) .missing) d

/-- What a row may hold under a key. -/
inductive StoredAs (fieldnames row : List String) : Option String → Value → Prop
  | text {name s : String} (h : (name, s) ∈ fieldnames.zip row) :
      StoredAs fieldnames row (some name) (.text s)
  | missing {name : String} (h : name ∈ fieldnames) : StoredAs fieldnames row (some name) .missing
  | surplus (h : fieldnames.length < row.length) :
      StoredAs fieldnames row none (.surplus (row.drop fieldnames.length))

variable {fieldnames row : List String}

theorem get?_foldl_missing {names : List String} {d : Dict (Option String) Value}
    {key : Option String} {value : Value}
    (h : (names.foldl (fun d key => d.set (some key) .missing) d).get? key = some value) :
    d.get? key = some value ∨ ∃ name ∈ names, key = some name ∧ value = .missing := by
  induction names generalizing d with
  | nil => exact .inl h
  | cons name names ih =>
    rcases ih h with hset | ⟨name', hname', hkey, hvalue⟩
    · rw [Dict.get?_set] at hset
      split at hset
      · rename_i heq
        exact .inr ⟨name, List.mem_cons_self, heq, (Option.some.inj hset).symm⟩
      · exact .inl hset
    · exact .inr ⟨name', List.mem_cons_of_mem _ hname', hkey, hvalue⟩

/-- A row holds fields under their names, `None` under the other names, and the surplus
fields under the key `None`. -/
theorem storedAs_of_get? {key : Option String} {value : Value}
    (h : (dictRow fieldnames row).get? key = some value) : StoredAs fieldnames row key value := by
  have hzip : (Dict.ofList ((fieldnames.zip row).map fun e => (some e.1, Value.text e.2))).get? key =
      some value → StoredAs fieldnames row key value := by
    intro hget
    obtain ⟨e, he, heq⟩ := List.mem_map.mp (Dict.mem_of_get?_ofList hget)
    obtain ⟨rfl, rfl⟩ := Prod.mk.inj heq
    exact .text he
  rw [dictRow] at h
  split at h
  · rename_i hlong
    rw [Dict.get?_set] at h
    split at h
    · rename_i hkey
      obtain rfl := Option.some.inj h
      subst hkey
      exact .surplus hlong
    · exact hzip h
  · rcases get?_foldl_missing h with hget | ⟨name, hname, rfl, rfl⟩
    · exact hzip hget
    · exact .missing (List.mem_of_mem_drop hname)

/-- The surplus fields of a long record are in its row. -/
theorem get?_dictRow_surplus (h : fieldnames.length < row.length) :
    (dictRow fieldnames row).get? none = some (.surplus (row.drop fieldnames.length)) := by
  rw [dictRow]
  simp only [h, if_true, Dict.get?_set]

end RelyLoop.Python.Csv
