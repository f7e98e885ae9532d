import Mathlib.Data.Rat.Defs
import RelyLoop.Adapters.SolrParams
import RelyLoop.Python.Loops

/-!
# Entries that replace each other

A unified entry and the native entry of its Solr name are one parameter of the request. Without
such a pair, a request that is made represents every entry of the template.
-/

namespace RelyLoop.Adapters

open Python

variable {F : Type} {R : Reprs F} {rendered out : Dict String (Json F)} {key key' name : String}
  {value value' : Json F}

/-! ## Names -/

/-- The Solr names of the unified parameters, except for `boost_fn`. -/
def unifiedNames : List (String × String) :=
  [("field_boosts", "qf"), ("phrase_field_boosts", "pf"), ("tie_breaker", "tie"),
    ("min_should_match", "mm"), ("slop", "ps"), ("rerank_model", "rq")]

/-- The Solr name of a unified entry. That of `boost_fn` depends on how it combines. -/
def nativeName (key : String) (value : Json F) : Option String :=
  if key = "boost_fn" then
    match value.get? "combine" with
    | some (.str "add") => some "bf"
    | some (.str "multiply") => some "boost"
    | _ => none
  else unifiedNames.lookup key

/-- The unified parameter of a Solr name. -/
def unifiedKey (native : String) : Option String :=
  [("qf", "field_boosts"), ("pf", "phrase_field_boosts"), ("tie", "tie_breaker"),
    ("mm", "min_should_match"), ("ps", "slop"), ("rq", "rerank_model"), ("bf", "boost_fn"),
    ("boost", "boost_fn")].lookup native

theorem mem_of_lookup_eq_some {α β : Type} [BEq α] [LawfulBEq α] {pairs : List (α × β)} {a : α}
    {b : β} (h : pairs.lookup a = some b) : (a, b) ∈ pairs := by
  obtain ⟨before, after, rfl, -⟩ := List.lookup_eq_some_iff.mp h
  simp

/-- A Solr name belongs to one unified parameter. -/
theorem unifiedKey_nativeName (h : nativeName key value = some name) :
    unifiedKey name = some key := by
  unfold nativeName at h
  split at h
  case isTrue hkey =>
    subst hkey
    split at h
    · obtain rfl := Option.some.inj h
      decide
    · obtain rfl := Option.some.inj h
      decide
    · cases h
  case isFalse =>
    have hall : ∀ e ∈ unifiedNames, unifiedKey e.2 = some e.1 := by decide
    exact hall (key, name) (mem_of_lookup_eq_some h)

/-! ## Translations -/

theorem renderFieldBoosts_name {native unified : String} {solrKey : String} {solrValue : Json F}
    (h : renderFieldBoosts unified native R value = .ok (solrKey, solrValue)) :
    solrKey = native := by
  unfold renderFieldBoosts at h
  split at h
  case h_1 fields boosts =>
    cases hjoin : joinFieldBoosts R (fields.zip boosts) with
    | error e =>
      rw [hjoin] at h
      cases h
    | ok text =>
      rw [hjoin] at h
      cases h
      rfl
  case h_2 => cases h

theorem renderTie_name {solrValue : Json F} (h : renderTie R value = .ok (name, solrValue)) :
    name = "tie" := by
  unfold renderTie at h
  split at h <;> cases h
  rfl

theorem renderMm_name {solrValue : Json F} (h : renderMm R value = .ok (name, solrValue)) :
    name = "mm" := by
  unfold renderMm at h
  split at h
  · cases h
    rfl
  · split at h <;> cases h
    rfl

theorem renderPs_name {solrValue : Json F} (h : renderPs value = .ok (name, solrValue)) :
    name = "ps" := by
  unfold renderPs at h
  split at h <;> cases h
  rfl

theorem renderBoostFn_name {solrValue : Json F}
    (h : renderBoostFn R value = .ok (name, solrValue)) :
    nativeName "boost_fn" value = some name := by
  unfold renderBoostFn at h
  split at h
  case h_1 keys values =>
    split at h
    · cases h
    · split at h
      · next hcombine =>
        cases h
        simp [nativeName, hcombine]
      · next hcombine =>
        cases h
        simp [nativeName, hcombine]
      · cases h
  case h_2 => cases h

theorem renderRerankModel_name {solrValue : Json F}
    (h : renderRerankModel value = .ok (name, solrValue)) : name = "rq" := by
  unfold renderRerankModel at h
  split at h
  · split at h
    · cases h
    · split at h <;> cases h
      rfl
  · cases h

/-- A native parameter is no unified one. -/
theorem nativeName_of_native (hkey : key ∈ solrNativeParams) : nativeName key value = none := by
  have hall : ∀ k ∈ solrNativeParams, k ≠ "boost_fn" ∧ unifiedNames.lookup k = none := by decide
  obtain ⟨hne, hlookup⟩ := hall key hkey
  rw [nativeName, if_neg hne, hlookup]

/-- The Solr name of an entry is that of the unified parameter, or the key itself. -/
theorem translate_name {solrValue : Json F}
    (h : translate R key value = .ok (name, solrValue)) :
    name = (nativeName key value).getD key := by
  unfold translate at h
  split at h
  case h_1 pivot hpivot =>
    have hmem := mem_of_lookup_eq_some hpivot
    simp only [paramPivots, List.mem_cons, List.not_mem_nil, or_false, Prod.mk.injEq] at hmem
    rcases hmem with ⟨rfl, rfl⟩ | ⟨rfl, rfl⟩ | ⟨rfl, rfl⟩ | ⟨rfl, rfl⟩ | ⟨rfl, rfl⟩ |
      ⟨rfl, rfl⟩ | ⟨rfl, rfl⟩
    · exact renderFieldBoosts_name h
    · exact renderFieldBoosts_name h
    · exact renderTie_name h
    · exact renderMm_name h
    · exact renderPs_name h
    · rw [renderBoostFn_name h]
      rfl
    · exact renderRerankModel_name h
  case h_2 hnone =>
    split at h
    case isTrue hnative =>
      cases h
      rw [nativeName_of_native hnative]
      rfl
    case isFalse => cases h

/-! ## Requests -/

/-- A unified entry stands beside the native entry of its Solr name. -/
def Clash (rendered : Dict String (Json F)) : Prop :=
  ∃ e ∈ rendered.entries, ∃ native ∈ rendered.keys, nativeName e.1 e.2 = some native

/-- An entry has no Solr name, or no valid value. -/
def HasInvalidEntry (R : Reprs F) (rendered : Dict String (Json F)) : Prop :=
  ∃ e ∈ rendered.entries, ∃ error, translate R e.1 e.2 = .error error

/-- The translation of each entry is in the request, and no other entry has its Solr name. -/
structure Represents (R : Reprs F) (rendered out : Dict String (Json F)) : Prop where
  present : ∀ e ∈ rendered.entries, ∃ solrKey solrValue,
    translate R e.1 e.2 = .ok (solrKey, solrValue) ∧ out.get? solrKey = some solrValue
  separate : ∀ e ∈ rendered.entries, ∀ e' ∈ rendered.entries, ∀ solrKey solrValue solrValue',
    translate R e.1 e.2 = .ok (solrKey, solrValue) →
      translate R e'.1 e'.2 = .ok (solrKey, solrValue') → e = e'

/-- A request that is made represents the template. -/
def KeepsEntries (R : Reprs F) (rendered : Dict String (Json F)) : Prop :=
  ∀ out, pivotToSolrParams R rendered = .ok out → Represents R rendered out

/-- A request is made of the translated entries. -/
theorem pivotToSolrParams_eq (R : Reprs F) (rendered : Dict String (Json F)) :
    pivotToSolrParams R rendered =
      (rendered.entries.mapM fun e => translate R e.1 e.2).map Dict.ofList := by
  have hfold : ∀ (entries : List (String × Json F)) (out : Dict String (Json F)),
      entries.foldlM (fun out e =>
        translate R e.1 e.2 >>= fun pair => return out.set pair.1 pair.2) out =
      (entries.mapM fun e => translate R e.1 e.2).map fun pairs =>
        pairs.foldl (fun d e => d.set e.1 e.2) out := by
    intro entries
    induction entries with
    | nil => exact fun _ => rfl
    | cons e entries ih =>
      intro out
      rw [List.foldlM_cons, List.mapM_cons]
      cases translate R e.1 e.2 with
      | error error => rfl
      | ok pair =>
        change entries.foldlM _ (out.set pair.1 pair.2) = _
        rw [ih]
        cases entries.mapM fun e => translate R e.1 e.2 <;> rfl
  exact hfold rendered.entries Dict.empty

/-- A request is made when every entry is valid. -/
theorem pivotToSolrParams_isOk_iff :
    (∃ out, pivotToSolrParams R rendered = .ok out) ↔ ¬HasInvalidEntry R rendered := by
  have hvalid : ¬HasInvalidEntry R rendered ↔
      ∀ e ∈ rendered.entries, ∃ pair, translate R e.1 e.2 = .ok pair := by
    simp only [HasInvalidEntry, not_exists, not_and]
    apply forall₂_congr
    intro e _
    cases translate R e.1 e.2 <;> simp
  rw [hvalid, ← mapM_isOk_iff, pivotToSolrParams_eq]
  cases rendered.entries.mapM fun e => translate R e.1 e.2 <;> simp [Except.map]

/-- Two entries of one Solr name are a unified one and the native one. -/
theorem eq_or_clash {e e' : String × Json F} (he : e ∈ rendered.entries)
    (he' : e' ∈ rendered.entries)
    (hname : (nativeName e.1 e.2).getD e.1 = (nativeName e'.1 e'.2).getD e'.1) :
    e = e' ∨ Clash rendered := by
  have hsame (hkey : e.1 = e'.1) : e = e' :=
    List.inj_on_of_nodup_map rendered.nodup he he' hkey
  cases hunified : nativeName e.1 e.2 with
  | none =>
    cases hunified' : nativeName e'.1 e'.2 with
    | none =>
      rw [hunified, hunified'] at hname
      exact Or.inl (hsame hname)
    | some native =>
      rw [hunified, hunified'] at hname
      exact Or.inr ⟨e', he', native, List.mem_map.mpr ⟨e, he, hname⟩, hunified'⟩
  | some native =>
    cases hunified' : nativeName e'.1 e'.2 with
    | none =>
      rw [hunified, hunified'] at hname
      exact Or.inr ⟨e, he, native, List.mem_map.mpr ⟨e', he', hname.symm⟩, hunified⟩
    | some native' =>
      rw [hunified, hunified'] at hname
      obtain rfl : native = native' := hname
      have hkeys := (unifiedKey_nativeName hunified).symm.trans (unifiedKey_nativeName hunified')
      exact Or.inl (hsame (Option.some.inj hkeys))

/-- Without a clash, no entry replaces another one. -/
theorem represents_of_not_clash (hclash : ¬Clash rendered)
    (hout : pivotToSolrParams R rendered = .ok out) : Represents R rendered out := by
  have hseparate : ∀ e ∈ rendered.entries, ∀ e' ∈ rendered.entries,
      ∀ solrKey solrValue solrValue', translate R e.1 e.2 = .ok (solrKey, solrValue) →
        translate R e'.1 e'.2 = .ok (solrKey, solrValue') → e = e' := by
    intro e he e' he' solrKey solrValue solrValue' h h'
    have hname := (translate_name h).symm.trans (translate_name h')
    exact (eq_or_clash he he' hname).resolve_right hclash
  refine ⟨fun e he => ?_, hseparate⟩
  rw [pivotToSolrParams_eq] at hout
  cases hpairs : rendered.entries.mapM fun e => translate R e.1 e.2 with
  | error error =>
    rw [hpairs] at hout
    cases hout
  | ok pairs =>
    rw [hpairs] at hout
    obtain rfl := Except.ok.inj hout
    obtain ⟨hall, hmade⟩ := mem_of_mapM hpairs
    obtain ⟨⟨solrKey, solrValue⟩, hpair, htranslate⟩ := hall e he
    refine ⟨solrKey, solrValue, htranslate, Dict.get?_ofList_eq_some hpair fun other hother => ?_⟩
    obtain ⟨e', he', htranslate'⟩ := hmade _ hother
    obtain rfl := hseparate e he e' he' _ _ _ htranslate htranslate'
    have hsame := Except.ok.inj (htranslate'.symm.trans htranslate)
    exact (Prod.mk.inj hsame).2

/-- The Solr name of a unified parameter is native. -/
theorem mem_solrNativeParams_of_nativeName (h : nativeName key value = some name) :
    name ∈ solrNativeParams := by
  have hall : ∀ native ∈ ["qf", "pf", "tie", "mm", "ps", "rq", "bf", "boost"],
      native ∈ solrNativeParams := by decide
  apply hall
  have hmem := mem_of_lookup_eq_some (unifiedKey_nativeName h)
  have hfst := List.mem_map_of_mem (f := Prod.fst) hmem
  exact hfst

/-- With a clash, one entry replaces another one. -/
theorem not_represents_of_clash (hclash : Clash rendered) : ¬Represents R rendered out := by
  rintro ⟨hpresent, hseparate⟩
  obtain ⟨e, he, native, hmem, hunified⟩ := hclash
  obtain ⟨e', he', rfl⟩ := List.mem_map.mp hmem
  have hnone : nativeName e'.1 e'.2 = none :=
    nativeName_of_native (mem_solrNativeParams_of_nativeName hunified)
  obtain ⟨solrKey, solrValue, h, -⟩ := hpresent e he
  obtain ⟨solrKey', solrValue', h', -⟩ := hpresent e' he'
  obtain rfl : solrKey = e'.1 := by
    have hname := translate_name h
    rwa [hunified] at hname
  obtain rfl : solrKey' = e'.1 := by
    have hname := translate_name h'
    rwa [hnone] at hname
  obtain rfl := hseparate e he e' he' _ _ _ h h'
  rw [hunified] at hnone
  cases hnone

/-- Every request that is made of a template represents its entries if and only if no request is
made of it, since an entry is invalid, or no unified entry stands beside the native entry of its
Solr name. -/
theorem keepsEntries_iff (R : Reprs F) (rendered : Dict String (Json F)) :
    KeepsEntries R rendered ↔ HasInvalidEntry R rendered ∨ ¬Clash rendered := by
  constructor
  · intro hkeeps
    by_contra hneither
    push Not at hneither
    obtain ⟨hvalid, hclash⟩ := hneither
    obtain ⟨out, hout⟩ := pivotToSolrParams_isOk_iff.mpr hvalid
    exact not_represents_of_clash hclash (hkeeps out hout)
  · rintro (hinvalid | hclash) out hout
    · exact absurd hinvalid (pivotToSolrParams_isOk_iff.mp ⟨out, hout⟩)
    · exact represents_of_not_clash hclash hout

/-- The boost of the body replaces that of the title. -/
theorem not_keepsEntries_boosts :
    ¬KeepsEntries (F := ℚ) ⟨fun _ => "", fun _ => ""⟩
      (Dict.ofList [("qf", .str "title^2"), ("field_boosts", .dict ["body"] [.int 3])]) := by
  intro hkeeps
  have hout := hkeeps (Dict.ofList [("qf", .str "body^3")]) rfl
  refine not_represents_of_clash ?_ hout
  refine ⟨("field_boosts", .dict ["body"] [.int 3]), ?_, "qf", ?_, rfl⟩
  · exact List.mem_cons_of_mem _ List.mem_cons_self
  · exact List.mem_cons_self

end RelyLoop.Adapters
