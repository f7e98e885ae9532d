import RelyLoop.Python.Dict
import RelyLoop.Text.Utf16
import Mathlib.Data.List.Lex
import Mathlib.Data.List.Sort

/-!
# JSON data

The values that `json.loads` makes of any text, whose strings may hold surrogates alone, and the
order that `sort_keys` gives to their objects.
-/

namespace RelyLoop.Python

open Text

/-- A string, by its UTF-16 code units: a pair of surrogates is one character of it. -/
abbrev JsonString := List UInt16

namespace JsonString

/-- A text as a string. -/
def ofText (text : List Char) : JsonString := (utf16 text).map UInt16.ofNat

/-- The characters of a string, if it has no surrogate alone. -/
def toText? (s : JsonString) : Option (List Char) :=
  (codePoints (s.map UInt16.toNat)).mapM CodePoint.scalar?

/-- The numbers of the code points, by which `str` is ordered. -/
def numbers (s : JsonString) : List ℕ :=
  (codePoints (s.map UInt16.toNat)).map CodePoint.toNat

/-- The code points tell strings apart. -/
theorem numbers_injective : Function.Injective numbers := by
  intro s t h
  have hunits : ∀ s : JsonString, ∀ unit ∈ s.map UInt16.toNat, unit < 0x10000 := by
    intro s unit hunit
    obtain ⟨u, -, rfl⟩ := List.mem_map.mp hunit
    exact u.toNat_lt
  have hpoints := congrArg (List.map CodePoint.ofUnit) h
  rw [numbers, numbers, map_ofUnit_map_toNat, map_ofUnit_map_toNat] at hpoints
  have hflat := congrArg (List.flatMap CodePoint.units) hpoints
  rw [flatMap_units_codePoints (hunits s), flatMap_units_codePoints (hunits t)] at hflat
  exact List.map_injective_iff.mpr (fun _ _ => UInt16.toNat.inj) hflat

end JsonString

/-- What `json.loads` returns. -/
inductive JsonData (F : Type) where
  | null
  | bool (b : Bool)
  | int (i : ℤ)
  | float (f : F)
  | str (s : JsonString)
  | list (items : List (JsonData F))
  | dict (keys : List JsonString) (values : List (JsonData F))

variable {F : Type}

/-- The dict of a value that is one. -/
def JsonData.toDict? : JsonData F → Option (Dict JsonString (JsonData F))
  | dict keys values => some (Dict.ofList (keys.zip values))
  | _ => none

/-- `d.get(key)` of a dict. -/
def JsonData.get? (key : JsonString) (value : JsonData F) : Option (JsonData F) :=
  value.toDict?.bind fun d => d.get? key

/-- A dict as a value. -/
def JsonData.ofDict (d : Dict JsonString (JsonData F)) : JsonData F :=
  .dict d.keys (d.entries.map Prod.snd)

namespace JsonData

/-! ## Well-formed values -/

mutual

/-- Each key of a dict is there once and has its value. -/
def WellFormed : JsonData F → Prop
  | list items => AllWellFormed items
  | dict keys values => keys.Nodup ∧ keys.length = values.length ∧ AllWellFormed values
  | _ => True

/-- All values are well formed. -/
def AllWellFormed : List (JsonData F) → Prop
  | [] => True
  | value :: values => value.WellFormed ∧ AllWellFormed values

end

theorem allWellFormed_iff {values : List (JsonData F)} :
    AllWellFormed values ↔ ∀ value ∈ values, value.WellFormed := by
  induction values with
  | nil => simp [AllWellFormed]
  | cons value values ih => rw [AllWellFormed, ih, List.forall_mem_cons]

@[simp] theorem toDict?_ofDict (d : Dict JsonString (JsonData F)) :
    (ofDict d).toDict? = some d := by
  have hzip : d.keys.zip (d.entries.map Prod.snd) = d.entries := by
    rw [Dict.keys, List.zip_map']
    exact List.map_id _
  rw [ofDict, toDict?, hzip]
  exact congrArg some (Dict.ext (Dict.entries_ofList d.nodup))

/-- The values of a well-formed dict are well formed. -/
theorem WellFormed.get? {value v : JsonData F} (h : value.WellFormed) {key : JsonString}
    (hget : value.get? key = some v) : v.WellFormed := by
  obtain ⟨d, hdict, hv⟩ := Option.bind_eq_some_iff.mp hget
  cases value with
  | dict keys values =>
    obtain rfl := Option.some.inj hdict
    have hmem := Dict.mem_of_get?_ofList hv
    exact allWellFormed_iff.mp h.2.2 v (List.of_mem_zip hmem).2
  | _ => cases hdict

theorem wellFormed_ofDict {d : Dict JsonString (JsonData F)} :
    (ofDict d).WellFormed ↔ ∀ e ∈ d.entries, e.2.WellFormed := by
  rw [ofDict, WellFormed, allWellFormed_iff, List.forall_mem_map]
  have hlength : d.keys.length = (d.entries.map Prod.snd).length := by simp [Dict.keys]
  exact ⟨fun h => h.2.2, fun h => ⟨d.nodup, hlength, h⟩⟩

/-- A well-formed dict is that of its entries. -/
theorem exists_ofDict {keys : List JsonString} {values : List (JsonData F)}
    (h : (dict keys values).WellFormed) :
    ∃ d : Dict JsonString (JsonData F), dict keys values = ofDict d := by
  obtain ⟨hnodup, hlength, -⟩ := h
  have hfst : (keys.zip values).map Prod.fst = keys := List.map_fst_zip hlength.le
  have hsnd : (keys.zip values).map Prod.snd = values := List.map_snd_zip hlength.ge
  refine ⟨⟨keys.zip values, by rwa [hfst]⟩, ?_⟩
  change dict keys values = dict ((keys.zip values).map Prod.fst) ((keys.zip values).map Prod.snd)
  rw [hfst, hsnd]

/-! ## Depth -/

mutual

/-- How deep lists and dicts are nested. -/
def depth : JsonData F → ℕ
  | list items => depthAll items + 1
  | dict _ values => depthAll values + 1
  | _ => 0

/-- The greatest depth of the values. -/
def depthAll : List (JsonData F) → ℕ
  | [] => 0
  | value :: values => max value.depth (depthAll values)

end

mutual

/-- No integer has more than the given number of digits. -/
def digitsFit (limit : ℕ) : JsonData F → Bool
  | int i => decide ((Nat.toDigits 10 i.natAbs).length ≤ limit)
  | list items => allDigitsFit limit items
  | dict _ values => allDigitsFit limit values
  | _ => true

/-- The integers of all values fit. -/
def allDigitsFit (limit : ℕ) : List (JsonData F) → Bool
  | [] => true
  | value :: values => value.digitsFit limit && allDigitsFit limit values

end

/-! ## Sorted keys -/

/-- The order of `sorted(d.items())`. Keys are different, so the values are not compared. -/
def KeyLe (e e' : JsonString × JsonData F) : Prop := e.1.numbers ≤ e'.1.numbers

instance : DecidableRel (KeyLe (F := F)) := fun e e' =>
  inferInstanceAs (Decidable (e.1.numbers ≤ e'.1.numbers))

/-- The entries in the order of their keys. -/
def sortEntries (entries : List (JsonString × JsonData F)) : List (JsonString × JsonData F) :=
  entries.insertionSort KeyLe

mutual

/-- The value with the entries of every dict in the order of their keys. -/
def sortKeys : JsonData F → JsonData F
  | null => null
  | bool b => bool b
  | int i => int i
  | float f => float f
  | str s => str s
  | list items => list (sortKeysAll items)
  | dict keys values =>
    let entries := sortEntries (keys.zip (sortKeysAll values))
    dict (entries.map Prod.fst) (entries.map Prod.snd)

/-- The values with sorted keys. -/
def sortKeysAll : List (JsonData F) → List (JsonData F)
  | [] => []
  | value :: values => value.sortKeys :: sortKeysAll values

end

@[simp] theorem sortKeysAll_eq_map (values : List (JsonData F)) :
    sortKeysAll values = values.map sortKeys := by
  induction values with
  | nil => rfl
  | cons value values ih => rw [sortKeysAll, ih, List.map_cons]

instance : Std.Total (KeyLe (F := F)) := ⟨fun e e' => le_total e.1.numbers e'.1.numbers⟩

instance : IsTrans (JsonString × JsonData F) KeyLe := ⟨fun _ _ _ h h' => le_trans h h'⟩

theorem sortEntries_perm (entries : List (JsonString × JsonData F)) :
    (sortEntries entries).Perm entries :=
  List.perm_insertionSort _ entries

/-- Entries in another order are sorted alike. -/
theorem sortEntries_eq_of_perm {entries entries' : List (JsonString × JsonData F)}
    (hnodup : (entries.map Prod.fst).Nodup) (h : entries.Perm entries') :
    sortEntries entries = sortEntries entries' := by
  refine List.Perm.eq_of_pairwise ?_ (List.pairwise_insertionSort KeyLe entries)
    (List.pairwise_insertionSort KeyLe entries')
    ((sortEntries_perm entries).trans (h.trans (sortEntries_perm entries').symm))
  intro e e' he he' hle hle'
  have hkey := JsonString.numbers_injective (le_antisymm hle hle')
  have hmem := (sortEntries_perm entries).mem_iff.mp he
  have hmem' := h.mem_iff.mpr ((sortEntries_perm entries').mem_iff.mp he')
  exact List.inj_on_of_nodup_map hnodup hmem hmem' hkey

theorem sortEntries_sortEntries (entries : List (JsonString × JsonData F)) :
    sortEntries (sortEntries entries) = sortEntries entries :=
  (List.pairwise_insertionSort KeyLe entries).insertionSort_eq

theorem nodup_sortEntries {entries : List (JsonString × JsonData F)}
    (h : (entries.map Prod.fst).Nodup) : ((sortEntries entries).map Prod.fst).Nodup :=
  ((sortEntries_perm entries).map Prod.fst).nodup_iff.mpr h

/-- A dict with sorted keys. -/
def sortDict (d : Dict JsonString (JsonData F)) : Dict JsonString (JsonData F) :=
  ⟨sortEntries (d.mapValues sortKeys).entries, nodup_sortEntries (d.mapValues sortKeys).nodup⟩

theorem sortKeys_ofDict (d : Dict JsonString (JsonData F)) :
    sortKeys (ofDict d) = ofDict (sortDict d) := by
  have hzip : d.keys.zip ((d.entries.map Prod.snd).map sortKeys) =
      (d.mapValues sortKeys).entries := by
    rw [Dict.keys, List.map_map, List.zip_map']
    rfl
  rw [ofDict, sortKeys, sortKeysAll_eq_map, hzip]
  rfl

/-- Sorting the keys leaves the values where they are, with their own keys sorted. -/
theorem get?_sortDict (d : Dict JsonString (JsonData F)) (key : JsonString) :
    (sortDict d).get? key = (d.get? key).map sortKeys := by
  rw [← Dict.get?_mapValues]
  ext value
  rw [Dict.get?_eq_some_iff, Dict.get?_eq_some_iff]
  exact (sortEntries_perm _).mem_iff

/-- Dicts with the same values, up to the order of keys, are sorted alike. -/
theorem sortDict_congr {d d' : Dict JsonString (JsonData F)}
    (h : ∀ key, (d.get? key).map sortKeys = (d'.get? key).map sortKeys) :
    sortDict d = sortDict d' := by
  refine Dict.ext (sortEntries_eq_of_perm (d.mapValues sortKeys).nodup ?_)
  refine (List.perm_ext_iff_of_nodup (d.mapValues sortKeys).nodup.of_map
    (d'.mapValues sortKeys).nodup.of_map).mpr ?_
  rintro ⟨key, value⟩
  rw [← Dict.get?_eq_some_iff, ← Dict.get?_eq_some_iff, Dict.get?_mapValues, Dict.get?_mapValues,
    h key]

mutual

/-- Sorted keys are not sorted again. -/
@[simp] theorem sortKeys_sortKeys (value : JsonData F) :
    value.sortKeys.sortKeys = value.sortKeys := by
  cases value with
  | null => rfl
  | bool b => rfl
  | int i => rfl
  | float f => rfl
  | str s => rfl
  | list items => rw [sortKeys, sortKeys, sortKeysAll_sortKeysAll]
  | dict keys values =>
    have hvalues := sortKeysAll_sortKeysAll values
    rw [sortKeysAll_eq_map, sortKeysAll_eq_map, List.map_map] at hvalues
    have hfixed : ∀ e ∈ sortEntries (keys.zip (values.map sortKeys)), e.2.sortKeys = e.2 := by
      intro e he
      have hmem := (List.of_mem_zip ((sortEntries_perm _).mem_iff.mp he)).2
      obtain ⟨value, hvalue, heq⟩ := List.mem_map.mp hmem
      have hsame := List.map_inj_left.mp hvalues value hvalue
      rwa [Function.comp_apply, heq] at hsame
    have hmap : ((sortEntries (keys.zip (values.map sortKeys))).map Prod.snd).map sortKeys =
        (sortEntries (keys.zip (values.map sortKeys))).map Prod.snd := by
      rw [List.map_map]
      exact List.map_congr_left fun e he => hfixed e he
    have hzip : ((sortEntries (keys.zip (values.map sortKeys))).map Prod.fst).zip
        ((sortEntries (keys.zip (values.map sortKeys))).map Prod.snd) =
        sortEntries (keys.zip (values.map sortKeys)) := by
      rw [List.zip_map']
      exact List.map_id _
    rw [sortKeys, sortKeys]
    simp only [sortKeysAll_eq_map, hmap, hzip, sortEntries_sortEntries]

theorem sortKeysAll_sortKeysAll (values : List (JsonData F)) :
    sortKeysAll (sortKeysAll values) = sortKeysAll values := by
  cases values with
  | nil => rfl
  | cons value values =>
    rw [sortKeysAll, sortKeysAll, sortKeys_sortKeys, sortKeysAll_sortKeysAll]

end

mutual

/-- A well-formed value with sorted keys is well formed. -/
theorem WellFormed.sortKeys {value : JsonData F} (h : value.WellFormed) :
    value.sortKeys.WellFormed := by
  cases value with
  | null => trivial
  | bool b => trivial
  | int i => trivial
  | float f => trivial
  | str s => trivial
  | list items =>
    rw [JsonData.sortKeys, WellFormed]
    exact AllWellFormed.sortKeysAll h
  | dict keys values =>
    have hall := allWellFormed_iff.mp (AllWellFormed.sortKeysAll h.2.2)
    obtain ⟨d, hd⟩ := exists_ofDict h
    rw [hd, sortKeys_ofDict, wellFormed_ofDict]
    intro e he
    have hmem := (sortEntries_perm _).mem_iff.mp he
    obtain ⟨e', he', rfl⟩ := List.mem_map.mp hmem
    refine hall _ ?_
    have hvalues : values = d.entries.map Prod.snd := (dict.inj hd).2
    rw [sortKeysAll_eq_map, hvalues, List.map_map]
    exact List.mem_map_of_mem he'

theorem AllWellFormed.sortKeysAll {values : List (JsonData F)} (h : AllWellFormed values) :
    AllWellFormed (JsonData.sortKeysAll values) := by
  cases values with
  | nil => trivial
  | cons value values => exact ⟨WellFormed.sortKeys h.1, AllWellFormed.sortKeysAll h.2⟩

end

/-! ## Sorting keeps the depth -/

theorem depthAll_le_iff {values : List (JsonData F)} {n : ℕ} :
    depthAll values ≤ n ↔ ∀ value ∈ values, value.depth ≤ n := by
  induction values with
  | nil => simp [depthAll]
  | cons value values ih => rw [depthAll, Nat.max_le, ih, List.forall_mem_cons]

theorem allDigitsFit_iff {values : List (JsonData F)} {n : ℕ} :
    allDigitsFit n values = true ↔ ∀ value ∈ values, value.digitsFit n = true := by
  induction values with
  | nil => simp [allDigitsFit]
  | cons value values ih => rw [allDigitsFit, Bool.and_eq_true, ih, List.forall_mem_cons]

theorem depthAll_perm {values values' : List (JsonData F)} (h : values.Perm values') :
    depthAll values = depthAll values' := by
  refine eq_of_forall_ge_iff fun n => ?_
  rw [depthAll_le_iff, depthAll_le_iff]
  exact forall_congr' fun value => by rw [h.mem_iff]

theorem allDigitsFit_perm {values values' : List (JsonData F)} {n : ℕ} (h : values.Perm values') :
    allDigitsFit n values = allDigitsFit n values' := by
  rw [Bool.eq_iff_iff, allDigitsFit_iff, allDigitsFit_iff]
  exact forall_congr' fun value => by rw [h.mem_iff]

/-- The values of a well-formed dict are sorted in another order. -/
theorem sortKeys_dict {keys : List JsonString} {values : List (JsonData F)}
    (h : keys.length = values.length) : ∃ keys' values', values'.Perm (sortKeysAll values) ∧
      sortKeys (dict keys values) = dict keys' values' := by
  refine ⟨_, _, ?_, rfl⟩
  have hperm := (sortEntries_perm (keys.zip (sortKeysAll values))).map Prod.snd
  rwa [List.map_snd_zip (by simp [h])] at hperm

mutual

/-- Sorted values are as deep as before. -/
theorem WellFormed.depth_sortKeys {value : JsonData F} (h : value.WellFormed) :
    value.sortKeys.depth = value.depth := by
  cases value with
  | null => rfl
  | bool b => rfl
  | int i => rfl
  | float f => rfl
  | str s => rfl
  | list items => rw [JsonData.sortKeys, depth, depth, AllWellFormed.depthAll_sortKeysAll h]
  | dict keys values =>
    obtain ⟨keys', values', hperm, heq⟩ := sortKeys_dict h.2.1
    rw [heq, depth, depth, depthAll_perm hperm, AllWellFormed.depthAll_sortKeysAll h.2.2]

theorem AllWellFormed.depthAll_sortKeysAll {values : List (JsonData F)} (h : AllWellFormed values) :
    depthAll (JsonData.sortKeysAll values) = depthAll values := by
  cases values with
  | nil => rfl
  | cons value values =>
    rw [JsonData.sortKeysAll, depthAll, depthAll, WellFormed.depth_sortKeys h.1,
      AllWellFormed.depthAll_sortKeysAll h.2]

end

mutual

/-- Sorted values have the integers from before. -/
theorem WellFormed.digitsFit_sortKeys {value : JsonData F} (h : value.WellFormed) (n : ℕ) :
    value.sortKeys.digitsFit n = value.digitsFit n := by
  cases value with
  | null => rfl
  | bool b => rfl
  | int i => rfl
  | float f => rfl
  | str s => rfl
  | list items =>
    rw [JsonData.sortKeys, digitsFit, digitsFit, AllWellFormed.allDigitsFit_sortKeysAll h]
  | dict keys values =>
    obtain ⟨keys', values', hperm, heq⟩ := sortKeys_dict h.2.1
    rw [heq, digitsFit, digitsFit, allDigitsFit_perm hperm,
      AllWellFormed.allDigitsFit_sortKeysAll h.2.2]

theorem AllWellFormed.allDigitsFit_sortKeysAll {values : List (JsonData F)}
    (h : AllWellFormed values) (n : ℕ) :
    allDigitsFit n (JsonData.sortKeysAll values) = allDigitsFit n values := by
  cases values with
  | nil => rfl
  | cons value values =>
    rw [JsonData.sortKeysAll, allDigitsFit, allDigitsFit, WellFormed.digitsFit_sortKeys h.1,
      AllWellFormed.allDigitsFit_sortKeysAll h.2]

end

/-- A dict is one level deeper than its values. -/
theorem depth_ofDict_le_iff {d : Dict JsonString (JsonData F)} {n : ℕ} :
    (ofDict d).depth ≤ n ↔ 0 < n ∧ ∀ e ∈ d.entries, e.2.depth < n := by
  rw [ofDict, depth]
  constructor
  · intro hle
    have hall := depthAll_le_iff.mp (Nat.le_sub_one_of_lt (Nat.lt_of_succ_le hle))
    refine ⟨by omega, fun e he => ?_⟩
    have hvalue := hall e.2 (List.mem_map_of_mem he)
    omega
  · rintro ⟨hpos, hall⟩
    have hle : depthAll (d.entries.map Prod.snd) ≤ n - 1 := by
      refine depthAll_le_iff.mpr (List.forall_mem_map.mpr fun e he => ?_)
      exact Nat.le_sub_one_of_lt (hall e he)
    omega

theorem digitsFit_ofDict_iff {d : Dict JsonString (JsonData F)} {n : ℕ} :
    (ofDict d).digitsFit n = true ↔ ∀ e ∈ d.entries, e.2.digitsFit n = true := by
  rw [ofDict, digitsFit, allDigitsFit_iff, List.forall_mem_map]

end JsonData

end RelyLoop.Python
