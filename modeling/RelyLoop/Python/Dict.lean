import Mathlib.Data.List.Induction
import Mathlib.Data.List.Nodup

/-!
# Dictionaries

Python's `dict`: finite maps that keep the order in which their keys were first
set. Besides lookup and assignment there are the two loops that programs write
around them: grouping the elements of a list under a key, and filling one
dictionary from another under new keys, where a later entry replaces an earlier
one.
-/

namespace RelyLoop.Python

/-- A dictionary: its entries in order, with distinct keys. -/
structure Dict (κ ν : Type) where
  entries : List (κ × ν)
  nodup : (entries.map Prod.fst).Nodup

namespace Dict

variable {κ κ' ν ν' α : Type}

/-- `{}`. -/
def empty : Dict κ ν := ⟨[], by simp⟩

/-- `list(d)`. -/
def keys (d : Dict κ ν) : List κ := d.entries.map Prod.fst

/-- `{k: f(v) for k, v in d.items()}`. -/
def mapValues (f : ν → ν') (d : Dict κ ν) : Dict κ ν' :=
  ⟨d.entries.map fun e => (e.1, f e.2), by simpa [Function.comp_def] using d.nodup⟩

/-- `{k: f(k, v) for k, v in d.items()}`. -/
def mapItems (f : κ → ν → ν') (d : Dict κ ν) : Dict κ ν' :=
  ⟨d.entries.map fun e => (e.1, f e.1 e.2), by simpa [Function.comp_def] using d.nodup⟩

@[simp] theorem keys_mapItems (f : κ → ν → ν') (d : Dict κ ν) : (d.mapItems f).keys = d.keys := by
  simp [keys, mapItems, Function.comp_def]

/-- `{k: v for k, v in d.items() if keeps(v)}`. -/
def filterValues (keeps : ν → Bool) (d : Dict κ ν) : Dict κ ν :=
  ⟨d.entries.filter fun e => keeps e.2, d.nodup.sublist (List.filter_sublist.map Prod.fst)⟩

private theorem filterMap_sublist (f : ν → Option ν') (entries : List (κ × ν)) :
    ((entries.filterMap fun e => (f e.2).map fun v => (e.1, v)).map Prod.fst).Sublist
      (entries.map Prod.fst) := by
  induction entries with
  | nil => exact List.Sublist.slnil
  | cons e entries ih =>
    rw [List.filterMap_cons, List.map_cons]
    cases f e.2 with
    | none => exact ih.cons e.1
    | some v => exact ih.cons_cons e.1

/-- `{k: f(v) for k, v in d.items()}`, where some values are left out. -/
def filterMapValues (f : ν → Option ν') (d : Dict κ ν) : Dict κ ν' :=
  ⟨d.entries.filterMap fun e => (f e.2).map fun v => (e.1, v),
    d.nodup.sublist (filterMap_sublist f d.entries)⟩

theorem keys_filterMapValues_subset (f : ν → Option ν') (d : Dict κ ν) :
    (d.filterMapValues f).keys ⊆ d.keys :=
  (filterMap_sublist f d.entries).subset

theorem mem_filterValues {keeps : ν → Bool} {d : Dict κ ν} {e : κ × ν} :
    e ∈ (d.filterValues keeps).entries ↔ e ∈ d.entries ∧ keeps e.2 = true :=
  List.mem_filter

/-- `{k: v for k, v in d.items() if keeps(k, v)}`. -/
def filterItems (keeps : κ → ν → Bool) (d : Dict κ ν) : Dict κ ν :=
  ⟨d.entries.filter fun e => keeps e.1 e.2, d.nodup.sublist (List.filter_sublist.map Prod.fst)⟩

theorem mem_filterItems {keeps : κ → ν → Bool} {d : Dict κ ν} {e : κ × ν} :
    e ∈ (d.filterItems keeps).entries ↔ e ∈ d.entries ∧ keeps e.1 e.2 = true :=
  List.mem_filter

variable [DecidableEq κ]

/-- `d` after `d.pop(k, default)`. -/
def erase (d : Dict κ ν) (k : κ) : Dict κ ν :=
  ⟨d.entries.filter fun e => e.1 ≠ k, d.nodup.sublist (List.filter_sublist.map Prod.fst)⟩

theorem mem_keys_erase {d : Dict κ ν} {k k' : κ} :
    k' ∈ (d.erase k).keys ↔ k' ∈ d.keys ∧ k' ≠ k := by
  rw [keys, keys, erase, List.mem_map, List.mem_map]
  constructor
  · rintro ⟨e, he, rfl⟩
    obtain ⟨hmem, hne⟩ := List.mem_filter.mp he
    exact ⟨⟨e, hmem, rfl⟩, of_decide_eq_true hne⟩
  · rintro ⟨⟨e, hmem, rfl⟩, hne⟩
    exact ⟨e, List.mem_filter.mpr ⟨hmem, decide_eq_true hne⟩, rfl⟩

/-- `d.get(k)`. -/
def get? (d : Dict κ ν) (k : κ) : Option ν := (d.entries.find? fun e => e.1 = k).map Prod.snd

private theorem map_fst_replace (entries : List (κ × ν)) (k : κ) (v : ν) :
    (entries.map fun e => if e.1 = k then (k, v) else e).map Prod.fst = entries.map Prod.fst := by
  rw [List.map_map]
  refine List.map_congr_left fun e _ => ?_
  by_cases he : e.1 = k <;> simp [he]

/-- `d[k] = v`: a key that is present keeps its place. -/
def set (d : Dict κ ν) (k : κ) (v : ν) : Dict κ ν :=
  if h : k ∈ d.entries.map Prod.fst then
    ⟨d.entries.map fun e => if e.1 = k then (k, v) else e, by
      rw [map_fst_replace]
      exact d.nodup⟩
  else
    ⟨d.entries ++ [(k, v)], by
      rw [List.map_append, List.map_singleton, ← List.concat_eq_append]
      exact d.nodup.concat h⟩

/-- `{k: v for k, v in pairs}`. -/
def ofList (pairs : List (κ × ν)) : Dict κ ν := pairs.foldl (fun d e => d.set e.1 e.2) empty

/-- `for x in xs: d.setdefault(key(x), []).append(x)`. -/
def group (key : α → κ) (xs : List α) : Dict κ (List α) :=
  xs.foldl (fun d x => d.set (key x) ((d.get? (key x)).getD [] ++ [x])) empty

omit [DecidableEq κ] in
theorem ext {d d' : Dict κ ν} (h : d.entries = d'.entries) : d = d' := by
  cases d
  cases d'
  cases h
  rfl

omit [DecidableEq κ] in
theorem eq_empty {d : Dict κ ν} (h : d.entries = []) : d = empty := by
  obtain ⟨entries, hnodup⟩ := d
  subst h
  rfl

@[simp] theorem get?_empty (k : κ) : (empty : Dict κ ν).get? k = none := rfl

/-- An entry is what its key is mapped to. -/
theorem get?_eq_some_iff (d : Dict κ ν) (k : κ) (v : ν) :
    d.get? k = some v ↔ (k, v) ∈ d.entries := by
  constructor
  · intro h
    obtain ⟨⟨k', v'⟩, hfound, rfl⟩ := Option.map_eq_some_iff.mp h
    obtain rfl : k' = k := by simpa using List.find?_some hfound
    exact List.mem_of_find?_eq_some hfound
  · intro h
    cases hfound : d.entries.find? (fun e => e.1 = k) with
    | none => simpa using List.find?_eq_none.mp hfound (k, v) h
    | some e =>
      have hkey : e.1 = k := by simpa using List.find?_some hfound
      have heq := List.inj_on_of_nodup_map d.nodup (List.mem_of_find?_eq_some hfound) h hkey
      simp [get?, hfound, heq]

theorem get?_eq_none_iff (d : Dict κ ν) (k : κ) :
    d.get? k = none ↔ k ∉ d.entries.map Prod.fst := by
  rw [get?, Option.map_eq_none_iff, List.find?_eq_none]
  simp only [decide_eq_true_eq, List.mem_map, not_exists, not_and]

/-- Assignment changes the value of its key only. -/
theorem get?_set (d : Dict κ ν) (k k' : κ) (v : ν) :
    (d.set k v).get? k' = if k' = k then some v else d.get? k' := by
  unfold set
  split
  · rename_i hmem
    split
    · rename_i heq
      subst heq
      rw [get?_eq_some_iff]
      obtain ⟨e, he, rfl⟩ := List.mem_map.mp hmem
      exact List.mem_map.mpr ⟨e, he, by simp⟩
    · rename_i hne
      ext w
      simp only [get?_eq_some_iff, List.mem_map]
      constructor
      · rintro ⟨e, he, heq⟩
        by_cases hk : e.1 = k
        · rw [if_pos hk] at heq
          exact absurd (congrArg Prod.fst heq).symm hne
        · rw [if_neg hk] at heq
          exact heq ▸ he
      · exact fun hw => ⟨(k', w), hw, by simp [hne]⟩
  · rename_i hmem
    split
    · rename_i heq
      subst heq
      rw [get?_eq_some_iff]
      simp
    · rename_i hne
      ext w
      simp [get?_eq_some_iff, hne]

/-- An assignment to a present key leaves the keys alone. -/
theorem keys_set_of_mem {d : Dict κ ν} {k : κ} (h : k ∈ d.keys) (v : ν) :
    (d.set k v).keys = d.keys := by
  have hmem : k ∈ d.entries.map Prod.fst := h
  rw [set, dif_pos hmem]
  exact map_fst_replace d.entries k v

theorem mem_keys_of_get? {d : Dict κ ν} {k : κ} {v : ν} (h : d.get? k = some v) : k ∈ d.keys :=
  List.mem_map_of_mem (f := Prod.fst) ((d.get?_eq_some_iff k v).mp h)

theorem exists_get?_of_mem_keys {d : Dict κ ν} {k : κ} (h : k ∈ d.keys) :
    ∃ v, d.get? k = some v := by
  obtain ⟨e, he, rfl⟩ := List.mem_map.mp h
  exact ⟨e.2, (d.get?_eq_some_iff e.1 e.2).mpr he⟩

theorem mem_keys_iff {d : Dict κ ν} {k : κ} : k ∈ d.keys ↔ (d.get? k).isSome := by
  constructor
  · intro h
    obtain ⟨v, hv⟩ := exists_get?_of_mem_keys h
    rw [hv, Option.isSome_some]
  · intro h
    obtain ⟨v, hv⟩ := Option.isSome_iff_exists.mp h
    exact mem_keys_of_get? hv

theorem get?_mapItems (f : κ → ν → ν') (d : Dict κ ν) (k : κ) :
    (d.mapItems f).get? k = (d.get? k).map (f k) := by
  ext w
  rw [get?_eq_some_iff, Option.map_eq_some_iff]
  constructor
  · intro h
    obtain ⟨e, he, heq⟩ := List.mem_map.mp h
    obtain ⟨rfl, rfl⟩ := Prod.mk.inj heq
    exact ⟨e.2, (d.get?_eq_some_iff e.1 e.2).mpr he, rfl⟩
  · rintro ⟨v, hv, rfl⟩
    exact List.mem_map.mpr ⟨(k, v), (d.get?_eq_some_iff k v).mp hv, rfl⟩

theorem get?_filterMapValues (f : ν → Option ν') (d : Dict κ ν) (k : κ) :
    (d.filterMapValues f).get? k = (d.get? k).bind f := by
  ext w
  rw [get?_eq_some_iff, Option.bind_eq_some_iff]
  constructor
  · intro h
    obtain ⟨e, he, hvalue⟩ := List.mem_filterMap.mp h
    obtain ⟨v, hv, heq⟩ := Option.map_eq_some_iff.mp hvalue
    obtain ⟨rfl, rfl⟩ := Prod.mk.inj heq
    exact ⟨e.2, (d.get?_eq_some_iff e.1 e.2).mpr he, hv⟩
  · rintro ⟨v, hv, hw⟩
    exact List.mem_filterMap.mpr ⟨(k, v), (d.get?_eq_some_iff k v).mp hv, by rw [hw]; rfl⟩

theorem get?_mapValues (f : ν → ν') (d : Dict κ ν) (k : κ) :
    (d.mapValues f).get? k = (d.get? k).map f := by
  simp [get?, mapValues, List.find?_map, Function.comp_def]

theorem mapValues_set (f : ν → ν') (d : Dict κ ν) (k : κ) (v : ν) :
    (d.set k v).mapValues f = (d.mapValues f).set k (f v) := by
  have hkeys : (d.mapValues f).entries.map Prod.fst = d.entries.map Prod.fst := by
    simp [mapValues]
  unfold set
  by_cases hmem : k ∈ d.entries.map Prod.fst
  · rw [dif_pos hmem, dif_pos (by rwa [hkeys])]
    simp only [mapValues, List.map_map, mk.injEq]
    refine List.map_congr_left fun e _ => ?_
    by_cases he : e.1 = k <;> simp [he]
  · rw [dif_neg hmem, dif_neg (by rwa [hkeys])]
    simp [mapValues]

/-- `d.update(other)`. -/
def update (d other : Dict κ ν) : Dict κ ν :=
  other.entries.foldl (fun d e => d.set e.1 e.2) d

/-- The entries of the other dictionary replace those with their keys. -/
theorem get?_update (d other : Dict κ ν) (k : κ) :
    (d.update other).get? k = (other.get? k).or (d.get? k) := by
  have hfold : ∀ (entries : List (κ × ν)) (d : Dict κ ν), (entries.map Prod.fst).Nodup →
      (entries.foldl (fun d e => d.set e.1 e.2) d).get? k =
        ((entries.find? fun e => e.1 = k).map Prod.snd).or (d.get? k) := by
    intro entries
    induction entries with
    | nil => exact fun _ _ => rfl
    | cons e entries ih =>
      intro d hnodup
      rw [List.map_cons, List.nodup_cons] at hnodup
      rw [List.foldl_cons, ih (d.set e.1 e.2) hnodup.2, get?_set, List.find?_cons]
      by_cases hk : e.1 = k
      · subst hk
        have hnone : entries.find? (fun e' => e'.1 = e.1) = none :=
          List.find?_eq_none.mpr fun e' he' heq =>
            hnodup.1 (List.mem_map.mpr ⟨e', he', of_decide_eq_true heq⟩)
        simp [hnone]
      · simp [hk, Ne.symm hk]
  exact hfold other.entries d other.nodup

/-- The keys of a dictionary are keys of the pairs that it is built from. -/
theorem mem_of_ofList {pairs : List (κ × ν)} {k : κ}
    (h : k ∈ (ofList pairs).entries.map Prod.fst) : k ∈ pairs.map Prod.fst := by
  rw [← not_not (a := k ∈ _), ← get?_eq_none_iff] at h
  induction pairs using List.reverseRecOn with
  | nil => simp [ofList] at h
  | append_singleton pairs e ih =>
    have hstep : ofList (pairs ++ [e]) = (ofList pairs).set e.1 e.2 := by simp [ofList]
    rw [List.map_append, List.mem_append]
    by_cases hkey : k = e.1
    · exact Or.inr (by simp [hkey])
    · rw [hstep, get?_set, if_neg hkey] at h
      exact Or.inl (ih h)

/-- The last pair of a key is the one that a dictionary keeps. -/
theorem get?_ofList (pairs : List (κ × ν)) (k : κ) :
    (ofList pairs).get? k = ((pairs.filter fun e => e.1 = k).getLast?).map Prod.snd := by
  induction pairs using List.reverseRecOn with
  | nil => rfl
  | append_singleton pairs e ih =>
    have hstep : ofList (pairs ++ [e]) = (ofList pairs).set e.1 e.2 := by simp [ofList]
    rw [hstep, get?_set, List.filter_append]
    by_cases hkey : e.1 = k
    · subst hkey
      simp
    · simp [hkey, Ne.symm hkey, ih]

theorem mem_of_get?_ofList {pairs : List (κ × ν)} {k : κ} {v : ν}
    (h : (ofList pairs).get? k = some v) : (k, v) ∈ pairs := by
  rw [get?_ofList] at h
  obtain ⟨e, hlast, rfl⟩ := Option.map_eq_some_iff.mp h
  obtain ⟨hmem, hkey⟩ := List.mem_filter.mp (List.mem_of_getLast? hlast)
  obtain rfl : e.1 = k := of_decide_eq_true hkey
  exact hmem

/-- A key is present when one of the pairs has it. -/
theorem get?_ofList_isSome (pairs : List (κ × ν)) (k : κ) :
    ((ofList pairs).get? k).isSome ↔ ∃ e ∈ pairs, e.1 = k := by
  rw [get?_ofList, Option.isSome_map, List.getLast?_isSome, ne_eq, List.filter_eq_nil_iff]
  simp

/-- A key whose pairs all have one value is mapped to it. -/
theorem get?_ofList_eq_some {pairs : List (κ × ν)} {k : κ} {v : ν} (hmem : (k, v) ∈ pairs)
    (hunique : ∀ v', (k, v') ∈ pairs → v' = v) : (ofList pairs).get? k = some v := by
  have hsome := (get?_ofList_isSome pairs k).mpr ⟨(k, v), hmem, rfl⟩
  obtain ⟨v', hv'⟩ := Option.isSome_iff_exists.mp hsome
  rw [hv', hunique v' (mem_of_get?_ofList hv')]

theorem entries_set_of_notMem {d : Dict κ ν} {k : κ} (h : k ∉ d.keys) (v : ν) :
    (d.set k v).entries = d.entries ++ [(k, v)] := by
  rw [set]
  split
  · rename_i hmem
    exact absurd hmem h
  · rfl

/-- An assignment to a present key keeps its place. -/
theorem entries_set_of_append {d : Dict κ ν} {before after : List (κ × ν)} {k : κ} {v : ν}
    (h : d.entries = before ++ (k, v) :: after) (v' : ν) :
    (d.set k v').entries = before ++ (k, v') :: after := by
  have hnodup := d.nodup
  rw [h, List.map_append, List.map_cons, List.nodup_append, List.nodup_cons] at hnodup
  obtain ⟨-, ⟨hafter, -⟩, hbefore⟩ := hnodup
  have hsame : ∀ entries : List (κ × ν), k ∉ entries.map Prod.fst →
      (entries.map fun e => if e.1 = k then (k, v') else e) = entries := by
    intro entries hk
    refine (List.map_congr_left fun e he => ?_).trans entries.map_id
    have hne : e.1 ≠ k := by
      rintro rfl
      exact hk (List.mem_map_of_mem he)
    exact if_neg hne
  have hmem : k ∈ d.entries.map Prod.fst := by simp [h]
  rw [set, dif_pos hmem]
  simp only [h, List.map_append, List.map_cons, if_true]
  rw [hsame before fun hk => hbefore k hk k List.mem_cons_self rfl, hsame after hafter]

/-- A dictionary of pairs with distinct keys has these pairs, in their order. -/
theorem entries_ofList {pairs : List (κ × ν)} (h : (pairs.map Prod.fst).Nodup) :
    (ofList pairs).entries = pairs := by
  induction pairs using List.reverseRecOn with
  | nil => rfl
  | append_singleton pairs e ih =>
    have hstep : ofList (pairs ++ [e]) = (ofList pairs).set e.1 e.2 := by simp [ofList]
    rw [List.map_append, List.nodup_append] at h
    have hnew : e.1 ∉ (ofList pairs).keys := fun hmem =>
      h.2.2 e.1 (mem_of_ofList hmem) e.1 (by simp) rfl
    rw [hstep, entries_set_of_notMem hnew, ih h.1]

/-- New keys are entered behind the others. -/
theorem entries_update_of_disjoint {d other : Dict κ ν} (h : ∀ k ∈ other.keys, k ∉ d.keys) :
    (d.update other).entries = d.entries ++ other.entries := by
  have hfold : ∀ (entries : List (κ × ν)) (d : Dict κ ν), (entries.map Prod.fst).Nodup →
      (∀ e ∈ entries, e.1 ∉ d.keys) →
        (entries.foldl (fun d e => d.set e.1 e.2) d).entries = d.entries ++ entries := by
    intro entries
    induction entries with
    | nil => exact fun d _ _ => (List.append_nil d.entries).symm
    | cons e entries ih =>
      intro d hnodup hnew
      rw [List.map_cons, List.nodup_cons] at hnodup
      have hset := entries_set_of_notMem (hnew e List.mem_cons_self) e.2
      have hrest : ∀ e' ∈ entries, e'.1 ∉ (d.set e.1 e.2).keys := by
        intro e' he' hmem
        rw [keys, hset, List.map_append, List.mem_append, List.map_singleton,
          List.mem_singleton] at hmem
        rcases hmem with hold | hsame
        · exact hnew e' (List.mem_cons_of_mem e he') hold
        · exact hnodup.1 (hsame ▸ List.mem_map_of_mem he')
      rw [List.foldl_cons, ih (d.set e.1 e.2) hnodup.2 hrest, hset, List.append_assoc,
        List.singleton_append]
  exact hfold other.entries d other.nodup fun e he => h e.1 (List.mem_map_of_mem he)

/-! ## Grouping -/

/-- The group of a key holds the elements with that key, in their order; keys
without elements are absent. -/
theorem get?_group (key : α → κ) (xs : List α) (k : κ) :
    (group key xs).get? k =
      if xs.filter (fun x => key x = k) = [] then none
      else some (xs.filter fun x => key x = k) := by
  induction xs using List.reverseRecOn with
  | nil => simp [group]
  | append_singleton xs x ih =>
    have hstep : group key (xs ++ [x]) =
        (group key xs).set (key x) (((group key xs).get? (key x)).getD [] ++ [x]) := by
      simp [group]
    rw [hstep, get?_set]
    by_cases hk : k = key x
    · subst hk
      rw [if_pos rfl, ih]
      by_cases hnil : xs.filter (fun y => key y = key x) = []
      · simp [hnil]
      · simp [hnil]
    · rw [if_neg hk, ih]
      simp [Ne.symm hk]

/-! ## Filling a dictionary under new keys -/

variable [DecidableEq κ']

/-- `for k, v in d.items(): if (k' := rename(k)) is not None: out[k'] = v`. -/
def rekey (rename : κ → Option κ') (d : Dict κ ν) : Dict κ' ν :=
  d.entries.foldl (fun out e => match rename e.1 with
    | none => out
    | some k' => out.set k' e.2) empty

omit [DecidableEq κ] in
private theorem foldl_rekey (rename : κ → Option κ') (entries : List (κ × ν)) (out : Dict κ' ν)
    (k' : κ') :
    (entries.foldl (fun out e => match rename e.1 with
      | none => out
      | some k' => out.set k' e.2) out).get? k' =
      (((entries.filter fun e => rename e.1 = some k').getLast?).map Prod.snd).or
        (out.get? k') := by
  induction entries generalizing out with
  | nil => simp
  | cons e entries ih =>
    rw [List.foldl_cons, ih]
    cases hrename : rename e.1 with
    | none => simp [hrename]
    | some k₁ =>
      by_cases hk : k₁ = k'
      · subst hk
        cases hrest : entries.filter (fun e => rename e.1 = some k₁) with
        | nil => simp [hrename, hrest, get?_set]
        | cons x xs =>
          have hlast : ((x :: xs).getLast?).isSome := by simp
          obtain ⟨y, hy⟩ := Option.isSome_iff_exists.mp hlast
          simp [hrename, hrest, hy, List.getLast?_cons_cons]
      · simp [hrename, hk, get?_set, Ne.symm hk]

/-- A value under a new key comes from an entry that is renamed to it. -/
theorem exists_of_get?_rekey {rename : κ → Option κ'} {d : Dict κ ν} {k' : κ'} {v : ν}
    (h : (d.rekey rename).get? k' = some v) : ∃ k, d.get? k = some v ∧ rename k = some k' := by
  rw [rekey, foldl_rekey, get?_empty, Option.or_none] at h
  obtain ⟨e, hlast, rfl⟩ := Option.map_eq_some_iff.mp h
  obtain ⟨hmem, hrename⟩ := List.mem_filter.mp (List.mem_of_getLast? hlast)
  exact ⟨e.1, (d.get?_eq_some_iff e.1 e.2).mpr hmem, by simpa using hrename⟩

/-- A new key to which some entry is renamed is present. -/
theorem rekey_isSome {rename : κ → Option κ'} {d : Dict κ ν} {k : κ} {k' : κ'} {v : ν}
    (h : d.get? k = some v) (hrename : rename k = some k') : ((d.rekey rename).get? k').isSome := by
  rw [rekey, foldl_rekey, get?_empty, Option.or_none, Option.isSome_map, List.getLast?_isSome]
  refine List.ne_nil_of_mem (List.mem_filter.mpr ⟨(d.get?_eq_some_iff k v).mp h, ?_⟩)
  simpa using hrename

omit [DecidableEq κ] in
/-- Renaming keys and mapping values commute. -/
theorem rekey_mapValues (rename : κ → Option κ') (f : ν → ν') (d : Dict κ ν) :
    (d.mapValues f).rekey rename = (d.rekey rename).mapValues f := by
  have hfold : ∀ (entries : List (κ × ν)) (out : Dict κ' ν),
      (entries.map fun e => (e.1, f e.2)).foldl (fun out e => match rename e.1 with
        | none => out
        | some k' => out.set k' e.2) (out.mapValues f) =
      (entries.foldl (fun out e => match rename e.1 with
        | none => out
        | some k' => out.set k' e.2) out).mapValues f := by
    intro entries
    induction entries with
    | nil => exact fun _ => rfl
    | cons e entries ih =>
      intro out
      rw [List.map_cons, List.foldl_cons, List.foldl_cons, ← ih]
      cases hrename : rename e.1 with
      | none => simp
      | some k' => simp [mapValues_set]
  exact hfold d.entries empty

end Dict

/-! ## Distinct keys -/

section FromKeys

variable {κ : Type} [DecidableEq κ]

/-- `list(dict.fromkeys(xs))`: the first occurrences. -/
def fromKeys (xs : List κ) : List κ := xs.eraseDups

theorem mem_fromKeys {k : κ} {xs : List κ} : k ∈ fromKeys xs ↔ k ∈ xs := List.mem_eraseDups

/-- One more key is new or already there. -/
theorem fromKeys_append_singleton (xs : List κ) (k : κ) :
    fromKeys (xs ++ [k]) = if k ∈ xs then fromKeys xs else fromKeys xs ++ [k] := by
  rw [fromKeys, List.eraseDups_append]
  by_cases hk : k ∈ xs
  · simp [hk, fromKeys, List.removeAll]
  · simp [hk, fromKeys, List.removeAll, List.eraseDups_cons]

theorem nodup_fromKeys (xs : List κ) : (fromKeys xs).Nodup := by
  induction xs using List.reverseRecOn with
  | nil => exact List.nodup_nil
  | append_singleton xs k ih =>
    rw [fromKeys_append_singleton]
    split
    · exact ih
    · rename_i hk
      exact List.nodup_append.mpr ⟨ih, List.nodup_singleton k, fun a ha b hb => by
        rw [List.mem_singleton.mp hb]
        exact fun hab => hk (mem_fromKeys.mp (hab ▸ ha))⟩

/-- More keys come behind the first ones. -/
theorem fromKeys_prefix (xs ys : List κ) : fromKeys xs <+: fromKeys (xs ++ ys) := by
  rw [fromKeys, fromKeys, List.eraseDups_append]
  exact List.prefix_append _ _

theorem fromKeys_fromKeys (xs : List κ) : fromKeys (fromKeys xs) = fromKeys xs := by
  induction xs using List.reverseRecOn with
  | nil => rfl
  | append_singleton xs k ih =>
    rw [fromKeys_append_singleton]
    split
    · exact ih
    · rename_i hk
      rw [fromKeys_append_singleton, if_neg (mt mem_fromKeys.mp hk), ih]

/-- Keys may be added to the distinct ones. -/
theorem fromKeys_fromKeys_append (xs : List κ) (k : κ) :
    fromKeys (fromKeys xs ++ [k]) = fromKeys (xs ++ [k]) := by
  rw [fromKeys_append_singleton, fromKeys_append_singleton, fromKeys_fromKeys]
  simp only [mem_fromKeys]

end FromKeys

end RelyLoop.Python
