import RelyLoop.EcmaScript.JsonLexer
import RelyLoop.EcmaScript.Objects

/-!
# `JSON.parse` and `JSON.stringify`

A value is a tree whose objects have their own properties in the order of their enumeration. The
members of a text become properties: the last of equal keys gives the value, and array indices come
first.
-/

namespace RelyLoop.EcmaScript

open Python JsonTree

/-- Numbers: the one of a token, and the text that `JSON.stringify` gives it, which is a number of
JSON, or `null` for one that is not finite. -/
class JsNumber (F : Type) where
  ofToken : JsString → F
  text : F → JsString
  text_valid (x : F) : (Atom.number (text x)).Valid ∨ text x = units "null"

/-- A primitive value. -/
inductive JsAtom (F : Type) where
  | null
  | bool (b : Bool)
  | number (x : F)
  | str (s : JsString)

variable {F ν : Type}

/-- The array index that a key spells. -/
def keyIndex? (key : JsString) : Option ℕ :=
  if key.all fun u => u.toNat < 0x80 then arrayIndex? (String.ofList (key.map unitChar)) else none

/-- The rank of a key: its array index, or more than any of them. -/
def keyRank (key : JsString) : ℕ := (keyIndex? key).getD (2 ^ 32)

/-- The own properties that are created one after another, in the order of their enumeration: array
indices first, other keys as they were created. -/
def ownEntries (entries : List (JsString × ν)) : List (JsString × ν) :=
  (Dict.ofList entries).entries.insertionSort fun e e' => keyRank e.1 ≤ keyRank e'.1

/-- The string of an atom that is one. -/
def Atom.key? : Atom → Option JsString
  | str s => some s
  | _ => none

section Evaluate

variable [JsNumber F]

/-- The value of an atom. -/
def Atom.value : Atom → JsAtom F
  | null => .null
  | bool b => .bool b
  | number token => .number (JsNumber.ofToken token)
  | str s => .str s

/-- The text of a primitive value. -/
def JsAtom.text : JsAtom F → JsString
  | null => units "null"
  | bool true => units "true"
  | bool false => units "false"
  | number x => JsNumber.text x
  | str s => quote s

/-- The atom whose text is that of a value. -/
def JsAtom.written : JsAtom F → Atom
  | null => .null
  | bool b => .bool b
  | number x => if JsNumber.text x = units "null" then .null else .number (JsNumber.text x)
  | str s => .str s

theorem JsAtom.text_written (v : JsAtom F) : v.written.text = v.text ∧ v.written.Valid := by
  cases v with
  | null => exact ⟨rfl, trivial⟩
  | bool b => cases b <;> exact ⟨rfl, trivial⟩
  | number x =>
    rw [written]
    split
    · rename_i hnull
      exact ⟨hnull.symm, trivial⟩
    · rename_i hnull
      exact ⟨rfl, (JsNumber.text_valid x).resolve_right hnull⟩
  | str s => exact ⟨rfl, trivial⟩

mutual

/-- The value of a tree. -/
def evaluate : JsonTree JsString Atom → JsonTree JsString (JsAtom F)
  | .atom a => .atom a.value
  | .array items => .array (evaluateAll items)
  | .object keys values =>
    let entries := ownEntries (keys.zip (evaluateAll values))
    .object (entries.map Prod.fst) (entries.map Prod.snd)

/-- The values of trees. -/
def evaluateAll : List (JsonTree JsString Atom) → List (JsonTree JsString (JsAtom F))
  | [] => []
  | tree :: trees => evaluate tree :: evaluateAll trees

end

/-- `JSON.parse`. -/
def parseJson (text : JsString) : Option (JsonTree JsString (JsAtom F)) :=
  ((lex readAtom (text.length + 1) text).bind (read Atom.key?)).map evaluate

/-- `JSON.stringify(value, null, 2)`. -/
def stringify (value : JsonTree JsString (JsAtom F)) : JsString := write quote JsAtom.text 0 value

end Evaluate

/-! ## Objects that keep their members -/

mutual

/-- The keys of each object are different, with array indices first and ascending. -/
def InOrder {A : Type} : JsonTree JsString A → Prop
  | .atom _ => True
  | .array items => AllInOrder items
  | .object keys values =>
    keys.Nodup ∧ keys.Pairwise (fun key key' => keyRank key ≤ keyRank key') ∧ AllInOrder values

/-- The trees keep the order of their members. -/
def AllInOrder {A : Type} : List (JsonTree JsString A) → Prop
  | [] => True
  | tree :: trees => InOrder tree ∧ AllInOrder trees

end

/-- Different keys in order are enumerated as they are. -/
theorem ownEntries_of_pairwise {entries : List (JsString × ν)}
    (hnodup : (entries.map Prod.fst).Nodup)
    (hsorted : (entries.map Prod.fst).Pairwise fun key key' => keyRank key ≤ keyRank key') :
    ownEntries entries = entries := by
  rw [ownEntries, Dict.entries_ofList hnodup]
  exact (List.pairwise_map.mp hsorted).insertionSort_eq

theorem mem_of_mem_ownEntries {entries : List (JsString × ν)} {e : JsString × ν}
    (h : e ∈ ownEntries entries) : e ∈ entries :=
  Dict.mem_of_get?_ofList ((Dict.get?_eq_some_iff _ _ _).mpr ((List.mem_insertionSort _).mp h))

/-- Properties are enumerated by their ranks. -/
theorem pairwise_ownEntries (entries : List (JsString × ν)) :
    ((ownEntries entries).map Prod.fst).Pairwise fun key key' => keyRank key ≤ keyRank key' := by
  have : Std.Total fun e e' : JsString × ν => keyRank e.1 ≤ keyRank e'.1 :=
    ⟨fun e e' => Nat.le_total _ _⟩
  have : IsTrans (JsString × ν) fun e e' => keyRank e.1 ≤ keyRank e'.1 :=
    ⟨fun _ _ _ => Nat.le_trans⟩
  exact List.pairwise_map.mpr (List.pairwise_insertionSort _ _)

/-- If no property is lost, the keys are different. -/
theorem nodup_of_length_ownEntries {entries : List (JsString × ν)}
    (h : (ownEntries entries).length = entries.length) : (entries.map Prod.fst).Nodup := by
  rw [ownEntries, List.length_insertionSort] at h
  have hnodup := (Dict.ofList entries).nodup
  have hsubset : (Dict.ofList entries).entries.map Prod.fst ⊆ entries.map Prod.fst :=
    fun _ => Dict.mem_of_ofList
  have hperm := (List.subperm_of_subset hnodup hsubset).perm_of_length_le
    (by rw [List.length_map, List.length_map, h])
  exact hperm.nodup_iff.mp hnodup

section Evaluate

variable [JsNumber F]

theorem length_evaluateAll (trees : List (JsonTree JsString Atom)) :
    (evaluateAll trees : List (JsonTree JsString (JsAtom F))).length = trees.length := by
  induction trees with
  | nil => rfl
  | cons tree trees ih => rw [evaluateAll, List.length_cons, ih, List.length_cons]

mutual

/-- A value has one property for each key. -/
theorem wellFormed_evaluate (tree : JsonTree JsString Atom) :
    (evaluate tree : JsonTree JsString (JsAtom F)).WellFormed := by
  cases tree with
  | atom a => trivial
  | array items => exact allWellFormed_evaluateAll items
  | object keys values =>
    have hvalues := allWellFormed_iff.mp (allWellFormed_evaluateAll values)
    refine ⟨by rw [List.length_map, List.length_map], allWellFormed_iff.mpr fun value hvalue => ?_⟩
    obtain ⟨e, he, rfl⟩ := List.mem_map.mp hvalue
    exact hvalues e.2 (List.of_mem_zip (mem_of_mem_ownEntries he)).2
termination_by sizeOf tree

theorem allWellFormed_evaluateAll (trees : List (JsonTree JsString Atom)) :
    AllWellFormed (evaluateAll trees : List (JsonTree JsString (JsAtom F))) := by
  cases trees with
  | nil => trivial
  | cons tree trees => exact ⟨wellFormed_evaluate tree, allWellFormed_evaluateAll trees⟩
termination_by sizeOf trees

end

mutual

/-- A tree with its members in order is evaluated member by member. -/
theorem evaluate_of_inOrder {tree : JsonTree JsString Atom} (hwell : tree.WellFormed)
    (h : InOrder tree) :
    (evaluate tree : JsonTree JsString (JsAtom F)) = tree.map id Atom.value := by
  cases tree with
  | atom a => rw [evaluate, JsonTree.map]
  | array items => rw [evaluate, JsonTree.map, evaluateAll_of_allInOrder hwell h]
  | object keys values =>
    obtain ⟨hlength, hvalues⟩ := hwell
    obtain ⟨hnodup, hsorted, hall⟩ := h
    have heq : (evaluateAll values : List (JsonTree JsString (JsAtom F))) =
        mapAll id Atom.value values := evaluateAll_of_allInOrder hvalues hall
    have hle : keys.length = (mapAll id (Atom.value (F := F)) values).length := by
      rw [mapAll_eq_map, List.length_map, hlength]
    have hfst : (keys.zip (mapAll id (Atom.value (F := F)) values)).map Prod.fst = keys :=
      List.map_fst_zip hle.le
    have hsnd : (keys.zip (mapAll id (Atom.value (F := F)) values)).map Prod.snd =
        mapAll id Atom.value values := List.map_snd_zip hle.ge
    rw [evaluate, JsonTree.map, heq, List.map_id]
    rw [ownEntries_of_pairwise (by rwa [hfst]) (by rwa [hfst]), hfst, hsnd]
termination_by sizeOf tree

theorem evaluateAll_of_allInOrder {trees : List (JsonTree JsString Atom)}
    (hwell : AllWellFormed trees) (h : AllInOrder trees) :
    (evaluateAll trees : List (JsonTree JsString (JsAtom F))) = mapAll id Atom.value trees := by
  cases trees with
  | nil => rfl
  | cons tree trees =>
    rw [evaluateAll, mapAll, evaluate_of_inOrder hwell.1 h.1,
      evaluateAll_of_allInOrder hwell.2 h.2]
termination_by sizeOf trees

end

end Evaluate

end RelyLoop.EcmaScript
