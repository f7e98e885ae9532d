import RelyLoop.Proposals.ConfigDiff
import RelyLoop.Python.JsonEncoder
import RelyLoop.Python.Text

/-!
# Params files

`_apply_config_diff` on the bytes of a params file, with every exception that reading, decoding,
parsing and writing raise. Only two classes of them become the error of a proposal. The bytes are
written or left alone as they should, unless the file is no UTF-8, has an integer or a nesting that
`json` does not take, or cannot be written.
-/

namespace RelyLoop.Proposals.ParamsFiles

open Python JsonData Decoder

variable {F : Type}

/-! ## The code -/

/-- A JSON object. -/
abbrev Object (F : Type) := Dict JsonString (JsonData F)

/-- An object of well-formed values. -/
structure Document (F : Type) where
  object : Object F
  wellFormed : ∀ e ∈ object.entries, e.2.WellFormed

/-- What the path of the params file leads to: no regular file, one that cannot be read, or one with
some bytes, which can be written or not. -/
inductive File where
  | missing
  | unreadable
  | bytes (content : List UInt8) (writable : Bool)
  deriving DecidableEq

/-- The reasons of `_ParamsFileNotFoundError`. -/
inductive FileFailure where
  | notFound
  | unreadable
  | malformed
  | notObject
  deriving DecidableEq

/-- What `_apply_config_diff` raises. -/
inductive Raised where
  | paramNotInTemplate (drifted : List JsonString)
  | missingTo (key : JsonString)
  | paramValueInvalid (key : JsonString)
  | paramsFileNotFound (failure : FileFailure)
  | unicodeDecodeError
  | valueError
  | recursionError
  | osError
  deriving DecidableEq

/-- The code of the `pr_open_error`, for the exceptions that `_do_open_pr` handles. -/
def prOpenError? : Raised → Option String
  | .paramNotInTemplate _ | .missingTo _ | .paramValueInvalid _ => some "PARAM_NOT_IN_TEMPLATE"
  | .paramsFileNotFound _ => some "PARAMS_FILE_NOT_FOUND"
  | .unicodeDecodeError | .valueError | .recursionError | .osError => none

/-- How many lists and dicts `json.loads` and `json.dumps` enter before `RecursionError`. -/
structure Limits where
  loads : ℕ
  dumps : ℕ
  loads_pos : 0 < loads
  dumps_pos : 0 < dumps

def typeKey : JsonString := JsonString.ofText "type".toList

def toKey : JsonString := JsonString.ofText "to".toList

/-- The type of a declared parameter, in the simple or the rich form. -/
def declaredType : JsonData F → Option JsonString
  | .str s => some s
  | declared =>
    match declared.get? typeKey with
    | some (.str s) => some s
    | _ => none

/-- `_validate_config_value_type` accepts the value. -/
def valueTypeOk (table : CharacterTable) (value : JsonData F) (declared : Option (JsonData F)) :
    Bool :=
  match (declared.bind declaredType).bind JsonString.toText? with
  | none => true
  | some text =>
    let t := String.ofList (table.lower (strip text))
    if t ∈ numericParamTypes then
      match value with
      | .int _ | .float _ => true
      | _ => false
    else if t ∈ intParamTypes then
      match value with
      | .int _ => true
      | _ => false
    else if t ∈ boolParamTypes then
      match value with
      | .bool _ => true
      | _ => false
    else true

section Apply

variable [JsonFloat F]

/-- `json.loads(raw or "\x7b\x7d")`. -/
def loadsText (limit : ℕ) (raw : List Char) : Except Failure (JsonData F) :=
  loads limit (if raw = [] then ['\x7b', '\x7d'] else raw)

/-- The object in the params file. -/
def readParams (limit : ℕ) : File → Except Raised (Object F)
  | .missing => .error (.paramsFileNotFound .notFound)
  | .unreadable => .error (.paramsFileNotFound .unreadable)
  | .bytes content _ =>
    match readText content with
    | none => .error .unicodeDecodeError
    | some raw =>
      match loadsText limit raw with
      | .error .decodeError => .error (.paramsFileNotFound .malformed)
      | .error .valueError => .error .valueError
      | .error .recursionError => .error .recursionError
      | .ok value =>
        match value.toDict? with
        | none => .error (.paramsFileNotFound .notObject)
        | some current => .ok current

/-- The loop over the changes. -/
def applyChanges (table : CharacterTable) (declaredParams : Object F) :
    List (JsonString × JsonData F) → Object F → Except Raised (Object F)
  | [], current => .ok current
  | (key, change) :: changes, current =>
    match change.get? toKey with
    | none => .error (.missingTo key)
    | some value =>
      if valueTypeOk table value (declaredParams.get? key) then
        applyChanges table declaredParams changes (current.set key value)
      else .error (.paramValueInvalid key)

/-- `params_path.write_text(json.dumps(current, indent=2, sort_keys=True) + "\n")`. -/
def writeParams (limit : ℕ) (file : File) (current : Object F) : Except Raised File :=
  match Encoder.dumps limit (ofDict current) with
  | .error .recursionError => .error .recursionError
  | .error _ => .error .valueError
  | .ok text =>
    match file with
    | .bytes _ true => .ok (.bytes (writeText (text ++ ['\n'])) true)
    | _ => .error .osError

/-- `_apply_config_diff`: the file that it leaves, and what it returns or raises. -/
def applyConfigDiff (table : CharacterTable) (limits : Limits) (file : File)
    (configDiff declaredParams : Object F) : File × Except Raised (Object F) :=
  let drifted := configDiff.keys.filter (· ∉ declaredParams.keys)
  if drifted ≠ [] then (file, .error (.paramNotInTemplate drifted))
  else
    match readParams limits.loads file with
    | .error raised => (file, .error raised)
    | .ok current =>
      match applyChanges table declaredParams configDiff.entries current with
      | .error raised => (file, .error raised)
      | .ok merged =>
        match writeParams limits.dumps file merged with
        | .error raised => (file, .error raised)
        | .ok written => (written, .ok merged)

/-! ## What it promises -/

/-- The old object with the new value of each entry of the diff. -/
def overlay (configDiff old : Object F) (key : JsonString) : Option (JsonData F) :=
  ((configDiff.get? key).bind (JsonData.get? toKey)).or (old.get? key)

/-- Either a handled exception is raised and the file is left as it was, or the file is parsed to
the overlay of its old object, up to the order of keys, and left as it is when the diff is applied
again. -/
def Meets (table : CharacterTable) (limits : Limits) (file : File)
    (configDiff declaredParams : Object F) : Prop :=
  match applyConfigDiff table limits file configDiff declaredParams with
  | (after, .error raised) => (prOpenError? raised).isSome ∧ after = file
  | (after, .ok _) => ∃ old new : Object F,
    readParams limits.loads file = .ok old ∧ readParams limits.loads after = .ok new ∧
    (∀ key, (new.get? key).map sortKeys = (overlay configDiff old key).map sortKeys) ∧
    (applyConfigDiff table limits after configDiff declaredParams).1 = after

/-- An entry of the diff has a value of the declared type. -/
def Accepted (table : CharacterTable) (declaredParams : Object F) (e : JsonString × JsonData F) :
    Prop :=
  ∃ value, e.2.get? toKey = some value ∧ valueTypeOk table value (declaredParams.get? e.1) = true

/-- A value of an object is written, and read again. -/
def Limits.Fit (limits : Limits) (value : JsonData F) : Prop :=
  value.depth < limits.loads ∧ value.depth < limits.dumps ∧ value.digitsFit maxStrDigits = true

/-- The bytes are text that `json.loads` takes or finds malformed. If the text is an object and the
diff is accepted, the file can be written, and the values of the overlay fit. -/
def BytesOk (table : CharacterTable) (limits : Limits) (content : List UInt8) (writable : Bool)
    (configDiff declaredParams : Object F) : Prop :=
  ∃ raw, readText content = some raw ∧
    match loadsText (F := F) limits.loads raw with
    | .error failure => failure = .decodeError
    | .ok value => ∀ old, value.toDict? = some old →
      (∀ e ∈ configDiff.entries, Accepted table declaredParams e) →
        writable = true ∧ ∀ key value, overlay configDiff old key = some value → limits.Fit value

/-- The condition of the promise. -/
def Safe (table : CharacterTable) (limits : Limits) (file : File)
    (configDiff declaredParams : Object F) : Prop :=
  (∃ key ∈ configDiff.keys, key ∉ declaredParams.keys) ∨
    match file with
    | .missing | .unreadable => True
    | .bytes content writable => BytesOk table limits content writable configDiff declaredParams

end Apply

/-! ## The changes -/

section Changes

variable {table : CharacterTable} {declaredParams : Object F}

/-- Accepted changes overlay the object. -/
theorem applyChanges_of_accepted {changes : List (JsonString × JsonData F)}
    (hnodup : (changes.map Prod.fst).Nodup)
    (haccepted : ∀ e ∈ changes, Accepted table declaredParams e) (current : Object F) :
    ∃ merged, applyChanges table declaredParams changes current = .ok merged ∧
      ∀ key, merged.get? key = overlay ⟨changes, hnodup⟩ current key := by
  induction changes generalizing current with
  | nil => exact ⟨current, rfl, fun key => rfl⟩
  | cons e changes ih =>
    obtain ⟨name, change⟩ := e
    obtain ⟨⟨value, hto, htype⟩, hlater⟩ := List.forall_mem_cons.mp haccepted
    obtain ⟨hnew, hnodup'⟩ := List.nodup_cons.mp hnodup
    obtain ⟨merged, hmerged, hget⟩ := ih hnodup' hlater (current.set name value)
    refine ⟨merged, ?_, fun key => ?_⟩
    · rw [applyChanges, hto]
      dsimp only
      rw [if_pos htype, hmerged]
    · rw [hget, overlay, overlay, Dict.get?_set]
      by_cases hkey : key = name
      · subst hkey
        have hnone : (⟨changes, hnodup'⟩ : Object F).get? key = none :=
          (Dict.get?_eq_none_iff _ _).mpr hnew
        have hsome : (⟨(key, change) :: changes, hnodup⟩ : Object F).get? key = some change :=
          (Dict.get?_eq_some_iff _ _ _).mpr List.mem_cons_self
        rw [hnone, hsome, Option.bind_some, hto]
        simp
      · have hsame : (⟨(name, change) :: changes, hnodup⟩ : Object F).get? key =
            (⟨changes, hnodup'⟩ : Object F).get? key := by
          rw [Dict.get?, Dict.get?, List.find?_cons_of_neg]
          simpa using Ne.symm hkey
        rw [hsame, if_neg hkey]

/-- Without an accepted entry the loop raises a handled exception. -/
theorem applyChanges_of_not_accepted {changes : List (JsonString × JsonData F)}
    (h : ¬ ∀ e ∈ changes, Accepted table declaredParams e) (current : Object F) :
    ∃ raised, applyChanges table declaredParams changes current = .error raised ∧
      (prOpenError? raised).isSome := by
  induction changes generalizing current with
  | nil => exact absurd (fun e he => absurd he List.not_mem_nil) h
  | cons e changes ih =>
    obtain ⟨name, change⟩ := e
    rw [List.forall_mem_cons, not_and] at h
    rw [applyChanges]
    split
    · exact ⟨_, rfl, rfl⟩
    · rename_i value hto
      split
      · rename_i htype
        exact ih (h ⟨value, hto, htype⟩) _
      · exact ⟨_, rfl, rfl⟩

/-- The values of an overlay are well formed. -/
theorem wellFormed_of_overlay {configDiff : Document F} {old merged : Object F}
    (hold : ∀ e ∈ old.entries, e.2.WellFormed)
    (hget : ∀ key, merged.get? key = overlay configDiff.object old key) :
    ∀ e ∈ merged.entries, e.2.WellFormed := by
  intro e he
  have hvalue := (Dict.get?_eq_some_iff _ _ _).mpr he
  rw [hget, overlay, Option.or_eq_some_iff] at hvalue
  rcases hvalue with hvalue | ⟨-, hvalue⟩
  · obtain ⟨change, hchange, hto⟩ := Option.bind_eq_some_iff.mp hvalue
    have hmem := (Dict.get?_eq_some_iff _ _ _).mp hchange
    exact (configDiff.wellFormed _ hmem).get? hto
  · exact hold _ ((Dict.get?_eq_some_iff _ _ _).mp hvalue)

/-- Only undeclared keys have drifted. -/
theorem filter_drifted {configDiff : Object F}
    (h : ∀ key ∈ configDiff.keys, key ∈ declaredParams.keys) :
    configDiff.keys.filter (· ∉ declaredParams.keys) = [] :=
  List.filter_eq_nil_iff.mpr fun key hkey => by simpa using h key hkey

end Changes

/-! ## Reading and writing -/

section Files

variable [JsonFloat F]

/-- An object that is read has well-formed values. -/
theorem wellFormed_readParams {limit : ℕ} {file : File} {current : Object F}
    (h : readParams limit file = .ok current) : ∀ e ∈ current.entries, e.2.WellFormed := by
  cases file with
  | missing => cases h
  | unreadable => cases h
  | bytes content writable =>
    rw [readParams] at h
    split at h
    · cases h
    · split at h
      · cases h
      · cases h
      · cases h
      · rename_i value hloads
        have hvalue := loads_wellFormed hloads
        split at h
        · cases h
        · rename_i current' hdict
          obtain rfl := Except.ok.inj h
          intro e he
          have hget : value.get? e.1 = some e.2 := by
            rw [JsonData.get?, hdict, Option.bind_some]
            exact (Dict.get?_eq_some_iff _ _ _).mpr he
          exact hvalue.get? hget

/-- The file that is written for an object, with its entries in order. -/
def written (d : Object F) : File :=
  .bytes (writeText (Encoder.writeValue 0 (ofDict (sortDict d)) ++ ['\n'])) true

/-- What the written file depends on. -/
theorem written_congr {d d' : Object F}
    (h : ∀ key, (d.get? key).map sortKeys = (d'.get? key).map sortKeys) :
    written d = written d' := by
  rw [written, written, sortDict_congr h]

/-- An object is written if `json.dumps` takes it and the file can be written. -/
theorem writeParams_eq_ok_iff {limit : ℕ} {content : List UInt8} {writable : Bool} {d : Object F}
    {after : File} (hd : ∀ e ∈ d.entries, e.2.WellFormed) :
    writeParams limit (.bytes content writable) d = .ok after ↔
      writable = true ∧ (ofDict d).depth ≤ limit ∧ (ofDict d).digitsFit maxStrDigits = true ∧
        after = written d := by
  have hwell := wellFormed_ofDict.mpr hd
  rw [writeParams, Encoder.dumps, hwell.depth_sortKeys, hwell.digitsFit_sortKeys, sortKeys_ofDict]
  by_cases hdepth : (ofDict d).depth ≤ limit
  · rw [if_neg (Nat.not_lt.mpr hdepth)]
    by_cases hdigits : (ofDict d).digitsFit maxStrDigits = true
    · rw [if_pos hdigits]
      cases writable with
      | false => simp
      | true => simp [hdepth, hdigits, written, eq_comm]
    · simp [hdigits]
  · rw [if_pos (Nat.not_le.mp hdepth)]
    simp [hdepth]

/-- What writing raises is not handled. -/
theorem prOpenError?_writeParams {limit : ℕ} {file : File} {d : Object F} {raised : Raised}
    (h : writeParams limit file d = .error raised) : prOpenError? raised = none := by
  rw [writeParams] at h
  split at h
  · obtain rfl := Except.error.inj h
    rfl
  · obtain rfl := Except.error.inj h
    rfl
  · split at h
    · cases h
    · obtain rfl := Except.error.inj h
      rfl

/-- What is written for an object is read, with the keys in order, if the limit allows. -/
theorem readParams_written {limit : ℕ} {d : Object F} (hd : ∀ e ∈ d.entries, e.2.WellFormed)
    (hdigits : (ofDict d).digitsFit maxStrDigits = true) :
    readParams limit (written d) =
      if (ofDict d).depth ≤ limit then .ok (sortDict d) else .error .recursionError := by
  have hwell := wellFormed_ofDict.mpr hd
  have hreturn : '\r' ∉ Encoder.writeValue 0 (ofDict (sortDict d)) ++ ['\n'] := by
    have hvalue := Encoder.notMem_writeValue 0 (ofDict (sortDict d))
    simp [hvalue]
  have hloads := Encoder.loads_writeValue hwell.sortKeys
    ((hwell.digitsFit_sortKeys _).trans hdigits) limit
  rw [hwell.depth_sortKeys, sortKeys_ofDict] at hloads
  have hnil : Encoder.writeValue 0 (ofDict (sortDict d)) ++ ['\n'] ≠ [] := by simp
  rw [written, readParams, readText_writeText hreturn]
  dsimp only
  rw [loadsText, if_neg hnil, hloads, Encoder.atDepth]
  by_cases hdepth : (ofDict d).depth ≤ limit
  · simp only [hdepth, if_true, toDict?_ofDict]
  · simp only [hdepth, if_false]

end Files

/-! ## The whole function -/

section Outcomes

variable [JsonFloat F] {table : CharacterTable} {limits : Limits} {file : File}
  {configDiff declaredParams : Object F}

theorem applyConfigDiff_of_drifted {key : JsonString} (hkey : key ∈ configDiff.keys)
    (hdrifted : key ∉ declaredParams.keys) :
    ∃ raised, applyConfigDiff table limits file configDiff declaredParams = (file, .error raised) ∧
      (prOpenError? raised).isSome := by
  have hne : configDiff.keys.filter (· ∉ declaredParams.keys) ≠ [] :=
    List.ne_nil_of_mem (List.mem_filter.mpr ⟨hkey, decide_eq_true hdrifted⟩)
  exact ⟨_, if_pos hne, rfl⟩

theorem applyConfigDiff_of_read_error
    (hdeclared : ∀ key ∈ configDiff.keys, key ∈ declaredParams.keys) {raised : Raised}
    (hread : (readParams limits.loads file : Except Raised (Object F)) = .error raised) :
    applyConfigDiff table limits file configDiff declaredParams = (file, .error raised) := by
  simp only [applyConfigDiff, filter_drifted hdeclared, ne_eq, not_true_eq_false, if_false, hread]

theorem applyConfigDiff_of_not_accepted
    (hdeclared : ∀ key ∈ configDiff.keys, key ∈ declaredParams.keys) {old : Object F}
    (hread : readParams limits.loads file = .ok old)
    (h : ¬ ∀ e ∈ configDiff.entries, Accepted table declaredParams e) :
    ∃ raised, applyConfigDiff table limits file configDiff declaredParams = (file, .error raised) ∧
      (prOpenError? raised).isSome := by
  obtain ⟨raised, hraised, hhandled⟩ := applyChanges_of_not_accepted h old
  refine ⟨raised, ?_, hhandled⟩
  simp only [applyConfigDiff, filter_drifted hdeclared, ne_eq, not_true_eq_false, if_false, hread,
    hraised]

theorem applyConfigDiff_of_accepted
    (hdeclared : ∀ key ∈ configDiff.keys, key ∈ declaredParams.keys) {old : Object F}
    (hread : readParams limits.loads file = .ok old)
    (h : ∀ e ∈ configDiff.entries, Accepted table declaredParams e) :
    ∃ merged : Object F, (∀ key, merged.get? key = overlay configDiff old key) ∧
      applyConfigDiff table limits file configDiff declaredParams =
        match writeParams limits.dumps file merged with
        | .error raised => (file, .error raised)
        | .ok after => (after, .ok merged) := by
  obtain ⟨merged, hmerged, hget⟩ := applyChanges_of_accepted configDiff.nodup h old
  refine ⟨merged, hget, ?_⟩
  simp only [applyConfigDiff, filter_drifted hdeclared, ne_eq, not_true_eq_false, if_false, hread,
    hmerged]

theorem meets_of_handled {raised : Raised}
    (h : applyConfigDiff table limits file configDiff declaredParams = (file, .error raised))
    (hhandled : (prOpenError? raised).isSome) :
    Meets table limits file configDiff declaredParams := by
  rw [Meets, h]
  exact ⟨hhandled, rfl⟩

theorem not_meets_of_unhandled {raised : Raised}
    (h : applyConfigDiff table limits file configDiff declaredParams = (file, .error raised))
    (hnone : prOpenError? raised = none) : ¬ Meets table limits file configDiff declaredParams := by
  intro hmeets
  rw [Meets, h] at hmeets
  have hhandled := hmeets.1
  rw [hnone] at hhandled
  cases hhandled

end Outcomes

section Promise

variable [JsonFloat F] {table : CharacterTable} {limits : Limits} {configDiff : Document F}
  {declaredParams old merged : Object F}

/-- The file that was written for a merged object is left as it is. -/
theorem applyConfigDiff_written
    (hdeclared : ∀ key ∈ configDiff.object.keys, key ∈ declaredParams.keys)
    (haccepted : ∀ e ∈ configDiff.object.entries, Accepted table declaredParams e)
    (hget : ∀ key, merged.get? key = overlay configDiff.object old key)
    (hread : readParams limits.loads (written merged) = .ok (sortDict merged)) :
    (applyConfigDiff table limits (written merged) configDiff.object declaredParams).1 =
      written merged := by
  obtain ⟨again, hagain, heq⟩ := applyConfigDiff_of_accepted hdeclared hread haccepted
  have hwell := wellFormed_of_overlay (wellFormed_readParams hread) hagain
  rw [heq]
  cases hwrite : writeParams limits.dumps (written merged) again with
  | error raised => rfl
  | ok after =>
    obtain ⟨-, -, -, rfl⟩ := (writeParams_eq_ok_iff hwell).mp hwrite
    refine written_congr fun key => ?_
    rw [hagain, hget, overlay, overlay, get?_sortDict, hget, overlay]
    cases hto : (configDiff.object.get? key).bind (JsonData.get? toKey) with
    | some value => rfl
    | none =>
      rw [Option.none_or, Option.none_or, Option.map_map]
      exact congrArg (fun f => (old.get? key).map f) (funext fun value => sortKeys_sortKeys value)

/-- Accepted changes meet the promise if the file can be written and the overlay fits, and only
then. -/
theorem meets_of_accepted_iff {content : List UInt8} {writable : Bool}
    (hdeclared : ∀ key ∈ configDiff.object.keys, key ∈ declaredParams.keys)
    (hread : readParams limits.loads (.bytes content writable) = .ok old)
    (haccepted : ∀ e ∈ configDiff.object.entries, Accepted table declaredParams e) :
    Meets table limits (.bytes content writable) configDiff.object declaredParams ↔
      writable = true ∧
        ∀ key value, overlay configDiff.object old key = some value → limits.Fit value := by
  obtain ⟨merged, hget, heq⟩ := applyConfigDiff_of_accepted hdeclared hread haccepted
  have hwell := wellFormed_of_overlay (wellFormed_readParams hread) hget
  have hvalues : (∀ key value, overlay configDiff.object old key = some value → limits.Fit value) ↔
      ∀ e ∈ merged.entries, limits.Fit e.2 := by
    constructor
    · intro h e he
      refine h e.1 e.2 ?_
      rw [← hget]
      exact (Dict.get?_eq_some_iff _ _ _).mpr he
    · intro h key value hvalue
      rw [← hget] at hvalue
      exact h _ ((Dict.get?_eq_some_iff _ _ _).mp hvalue)
  rw [hvalues]
  cases hwrite : writeParams limits.dumps (.bytes content writable) merged with
  | error raised =>
    rw [hwrite] at heq
    refine iff_of_false (not_meets_of_unhandled heq (prOpenError?_writeParams hwrite)) ?_
    rintro ⟨hwritable, hfit⟩
    have hok : writeParams limits.dumps (.bytes content writable) merged = .ok (written merged) :=
      (writeParams_eq_ok_iff hwell).mpr ⟨hwritable,
        depth_ofDict_le_iff.mpr ⟨limits.dumps_pos, fun e he => (hfit e he).2.1⟩,
        digitsFit_ofDict_iff.mpr fun e he => (hfit e he).2.2, rfl⟩
    cases hwrite.symm.trans hok
  | ok after =>
    obtain ⟨hwritable, hdumps, hdigits, rfl⟩ := (writeParams_eq_ok_iff hwell).mp hwrite
    have hwritten : readParams limits.loads (written merged) = _ := readParams_written hwell hdigits
    rw [hwrite] at heq
    rw [Meets, heq]
    constructor
    · rintro ⟨-, new, -, hnew, -⟩
      rw [hwritten] at hnew
      split at hnew
      · rename_i hloads
        refine ⟨hwritable, fun e he => ⟨?_, ?_, ?_⟩⟩
        · exact (depth_ofDict_le_iff.mp hloads).2 e he
        · exact (depth_ofDict_le_iff.mp hdumps).2 e he
        · exact digitsFit_ofDict_iff.mp hdigits e he
      · cases hnew
    · rintro ⟨-, hfit⟩
      have hdepth := depth_ofDict_le_iff.mpr ⟨limits.loads_pos, fun e he => (hfit e he).1⟩
      rw [if_pos hdepth] at hwritten
      refine ⟨old, sortDict merged, hread, hwritten, fun key => ?_,
        applyConfigDiff_written hdeclared haccepted hget hwritten⟩
      rw [get?_sortDict, hget, Option.map_map]
      exact congrArg (fun f => (overlay configDiff.object old key).map f)
        (funext fun value => sortKeys_sortKeys value)

/-- The promise for a file of some bytes, when no key has drifted. -/
theorem meets_bytes_iff {content : List UInt8} {writable : Bool}
    (hdeclared : ∀ key ∈ configDiff.object.keys, key ∈ declaredParams.keys) :
    Meets table limits (.bytes content writable) configDiff.object declaredParams ↔
      BytesOk table limits content writable configDiff.object declaredParams := by
  have herror (raised : Raised) (hread : (readParams limits.loads (.bytes content writable) :
      Except Raised (Object F)) = .error raised) :
      applyConfigDiff table limits (.bytes content writable) configDiff.object declaredParams =
        (.bytes content writable, .error raised) :=
    applyConfigDiff_of_read_error hdeclared hread
  rw [BytesOk.eq_def]
  cases hraw : readText content with
  | none =>
    refine iff_of_false (not_meets_of_unhandled (herror _ (by rw [readParams, hraw])) rfl) ?_
    rintro ⟨raw, h, -⟩
    cases h
  | some raw =>
    simp only [Option.some.injEq, exists_eq_left']
    cases hloads : loadsText (F := F) limits.loads raw with
    | error failure =>
      cases failure with
      | decodeError =>
        have heq := herror (.paramsFileNotFound .malformed)
          (by simp only [readParams, hraw, hloads])
        exact iff_of_true (meets_of_handled heq rfl) rfl
      | valueError =>
        have heq := herror .valueError (by simp only [readParams, hraw, hloads])
        exact iff_of_false (not_meets_of_unhandled heq rfl) (by simp)
      | recursionError =>
        have heq := herror .recursionError (by simp only [readParams, hraw, hloads])
        exact iff_of_false (not_meets_of_unhandled heq rfl) (by simp)
    | ok value =>
      cases hdict : value.toDict? with
      | none =>
        have heq := herror (.paramsFileNotFound .notObject)
          (by simp only [readParams, hraw, hloads, hdict])
        exact iff_of_true (meets_of_handled heq rfl) (by simp [hdict])
      | some old =>
        have hread : readParams limits.loads (.bytes content writable) = .ok old := by
          simp only [readParams, hraw, hloads, hdict]
        simp only [hdict, Option.some.injEq, forall_eq']
        by_cases haccepted : ∀ e ∈ configDiff.object.entries, Accepted table declaredParams e
        · rw [meets_of_accepted_iff hdeclared hread haccepted]
          exact ⟨fun h _ => h, fun h => h haccepted⟩
        · obtain ⟨raised, heq, hhandled⟩ :=
            applyConfigDiff_of_not_accepted hdeclared hread haccepted
          exact iff_of_true (meets_of_handled heq hhandled) fun h => absurd h haccepted

/-- The promise is kept exactly under its condition. -/
theorem applyConfigDiff_meets_iff {file : File} :
    Meets table limits file configDiff.object declaredParams ↔
      Safe table limits file configDiff.object declaredParams := by
  by_cases hdeclared : ∀ key ∈ configDiff.object.keys, key ∈ declaredParams.keys
  · have hnone : ¬ ∃ key ∈ configDiff.object.keys, key ∉ declaredParams.keys :=
      fun ⟨key, hkey, hdrifted⟩ => hdrifted (hdeclared key hkey)
    rw [Safe.eq_def, or_iff_right hnone]
    cases file with
    | missing =>
      exact iff_of_true (meets_of_handled (applyConfigDiff_of_read_error hdeclared rfl) rfl) trivial
    | unreadable =>
      exact iff_of_true (meets_of_handled (applyConfigDiff_of_read_error hdeclared rfl) rfl) trivial
    | bytes content writable => exact meets_bytes_iff hdeclared
  · simp only [not_forall, exists_prop] at hdeclared
    obtain ⟨key, hkey, hdrifted⟩ := hdeclared
    obtain ⟨raised, heq, hhandled⟩ := applyConfigDiff_of_drifted hkey hdrifted
    exact iff_of_true (meets_of_handled heq hhandled) (Or.inl ⟨key, hkey, hdrifted⟩)

end Promise

/-! ## A file that is no UTF-8 -/

/-- Floats of a decoder that reads every number as a half. -/
inductive SampleFloat where
  | nan
  | infinity
  | negInfinity
  | half

def SampleFloat.text : SampleFloat → List Char
  | nan => "NaN".toList
  | infinity => "Infinity".toList
  | negInfinity => "-Infinity".toList
  | half => "0.5".toList

theorem isFloatToken_half : IsFloatToken "0.5".toList :=
  ⟨['0'], ['.', '5'], [], rfl, rfl, rfl, rfl, by decide⟩

theorem SampleFloat.text_cases (f : SampleFloat) :
    f.text = "NaN".toList ∧ f = nan ∨ f.text = "Infinity".toList ∧ f = infinity ∨
      f.text = "-Infinity".toList ∧ f = negInfinity ∨ IsFloatToken f.text ∧ half = f := by
  cases f with
  | nan => exact Or.inl ⟨rfl, rfl⟩
  | infinity => exact Or.inr (Or.inl ⟨rfl, rfl⟩)
  | negInfinity => exact Or.inr (Or.inr (Or.inl ⟨rfl, rfl⟩))
  | half => exact Or.inr (Or.inr (Or.inr ⟨isFloatToken_half, rfl⟩))

instance : JsonFloat SampleFloat :=
  ⟨.nan, .infinity, .negInfinity, fun _ => .half, SampleFloat.text, SampleFloat.text_cases⟩

/-- `{"boost": {"to": 2}}`. -/
def boostObject : Object SampleFloat :=
  Dict.ofList [(JsonString.ofText "boost".toList, .dict [toKey] [.int 2])]

theorem wellFormed_boostObject : ∀ e ∈ boostObject.entries, e.2.WellFormed := by
  intro e he
  obtain rfl := List.mem_singleton.mp he
  exact ⟨List.nodup_singleton _, rfl, trivial, trivial⟩

def boostDiff : Document SampleFloat := ⟨boostObject, wellFormed_boostObject⟩

/-- `{"boost": "float"}`. -/
def boostParams : Object SampleFloat :=
  Dict.ofList [(JsonString.ofText "boost".toList, .str (JsonString.ofText "float".toList))]

theorem sampleLimits_pos : 0 < 900 := by decide

def sampleLimits : Limits := ⟨900, 900, sampleLimits_pos, sampleLimits_pos⟩

/-- The exception for bytes that are no UTF-8 is not handled. -/
theorem not_meets_invalidUtf8 :
    ¬ Meets asciiTable sampleLimits (.bytes [0xff] true) boostDiff.object boostParams := by
  have hread : (readParams sampleLimits.loads (.bytes [0xff] true) :
      Except Raised (Object SampleFloat)) = .error .unicodeDecodeError := rfl
  refine not_meets_of_unhandled (applyConfigDiff_of_read_error (fun key hkey => ?_) hread) rfl
  exact hkey

end RelyLoop.Proposals.ParamsFiles
