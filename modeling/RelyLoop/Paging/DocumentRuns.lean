import RelyLoop.Paging.Documents

/-!
# Runs over the documents of a target

The pages of Elasticsearch end between documents. Where the next document has the sort value
of the last one, the search skips it. A cursor of Solr's pages is never one of its marks.
-/

namespace RelyLoop.Paging

open Python

variable {F : Type}

/-! ## Hits -/

/-- The hits are the engine's rows. -/
theorem map_documentHits {rows : List (String × List (Json F))} {hits : List (DocumentHit F)}
    (h : documentHits rows = some hits) : (hits.map fun hit => (hit.docId, hit.sort)) = rows := by
  rw [documentHits] at h
  split at h
  · obtain rfl := Option.some.inj h
    simp [List.map_pmap]
  · cases h

theorem exists_documentHits {rows : List (String × List (Json F))}
    (h : ∀ row ∈ rows, row.1 ≠ "") : ∃ hits, documentHits rows = some hits :=
  ⟨_, dif_pos h⟩

/-- Hits with the same ids and sort values are equal. -/
theorem eq_of_map_eq {hits hits' : List (DocumentHit F)}
    (h : (hits.map fun hit => (hit.docId, hit.sort)) =
      hits'.map fun hit => (hit.docId, hit.sort)) : hits = hits' := by
  refine List.map_injective_iff.mpr ?_ h
  rintro ⟨docId, sort, hne⟩ ⟨docId', sort', hne'⟩ heq
  obtain ⟨rfl, rfl⟩ := Prod.mk.inj heq
  rfl

/-- The hits of the rows of a list, up to its last one. -/
theorem exists_concat_of_map {rows : List (String × List (Json F))}
    {row : String × List (Json F)} {hits : List (DocumentHit F)}
    (h : (hits.map fun hit => (hit.docId, hit.sort)) = rows ++ [row]) :
    ∃ first last, hits = first ++ [last] ∧
      (first.map fun hit => (hit.docId, hit.sort)) = rows ∧ (last.docId, last.sort) = row := by
  obtain ⟨first, rest, rfl, hfirst, hrest⟩ := List.map_eq_append_iff.mp h
  obtain ⟨last, rfl, hlast⟩ := List.map_eq_singleton_iff.mp hrest
  exact ⟨first, last, rfl, hfirst, hlast⟩

section Cursors

variable [PyFloat F]

/-- A cursor of scalars is read back. -/
theorem decodeDocumentsCursor_encodeDocumentsCursor {sort : List (Json F)}
    (hscalar : ∀ value ∈ sort, value.IsScalar) :
    decodeIfPresent (decodeDocumentsCursor (F := F)) (some (encodeDocumentsCursor sort)) =
      some (some sort) := by
  have hplain : compactSeparators.IsPlain := ⟨[], rfl, by simp⟩
  have hread := decodeToken_encodeToken hplain hscalar
  have hne : encodeDocumentsCursor sort ≠ [] := by
    intro hnil
    rw [← encodeDocumentsCursor, hnil, decodeToken_nil] at hread
    cases hread
  have hascii : (encodeDocumentsCursor sort).all fun c => decide (c.toNat < 128) := by
    rw [List.all_eq_true]
    intro c hc
    exact decide_eq_true (Base64.lt_of_mem_encode _ c hc)
  rw [decodeIfPresent_of_ne_nil hne, decodeDocumentsCursor, if_pos hascii, encodeDocumentsCursor,
    hread]
  rfl

/-- The cursor of a place in a shard is short. -/
theorem length_encodeDocumentsCursor_le {doc : ℕ} (hdoc : doc < 2 ^ 31) :
    (encodeDocumentsCursor [Json.int (doc : ℤ) (F := F)]).length ≤ maxCursorLength := by
  have hdigits : (Nat.toDigits 10 doc).length ≤ 10 :=
    (Nat.length_toDigits_le_iff (by decide) (by decide)).mpr (by omega)
  have htext : (dumps compactSeparators (.list [Json.int (doc : ℤ) (F := F)])).length ≤ 12 := by
    simp only [dumps, dumpsItems, intText, List.length_cons, List.length_append, List.length_nil]
    rw [if_neg (by omega), Int.natAbs_natCast]
    omega
  have hlength := length_encodeToken_le compactSeparators (.list [Json.int (doc : ℤ) (F := F)])
  rw [encodeDocumentsCursor, maxCursorLength]
  omega

end Cursors

/-! ## Elasticsearch -/

section Elastic

variable [PyFloat F]

/-- The row of a document. -/
def ElasticDocument.row (d : ElasticDocument) : String × List (Json F) :=
  (d.docId, [Json.int d.doc])

/-- The cursor is at the start, or holds the sort value of a document, and the search returns
the documents behind it. -/
inductive ElasticStands (F : Type) [PyFloat F] (docs : List ElasticDocument) :
    Option (List Char × Option String) → List ElasticDocument → Prop where
  | start : ElasticStands F docs none (sortByDoc docs)
  | behind (last : ElasticDocument) :
    ElasticStands F docs (some (encodeDocumentsCursor [Json.int last.doc (F := F)], none))
      ((sortByDoc docs).filter fun d => decide (last.doc < d.doc))

variable {docs rows : List ElasticDocument} {cursor : Option (List Char × Option String)}
  {limit : ℕ}

theorem ElasticStands.respond (h : ElasticStands F docs cursor rows) (limit : ℕ) :
    listTargetDocuments F (.elastic docs) limit cursor =
      (documentHits ((rows.take (limit + 1)).map ElasticDocument.row)).map
        (pageOfOverFetch (fun hit => (encodeDocumentsCursor hit.sort, none)) limit docs.length) := by
  cases h with
  | start =>
    rw [listTargetDocuments, if_neg (by simp)]
    simp only [Option.map_none, decodeIfPresent, DocumentTarget.listDocuments,
      elasticListDocuments, elasticSearch, Option.map_map]
    rfl
  | behind last =>
    have hscalar : ∀ value ∈ [Json.int (last.doc : ℤ) (F := F)], value.IsScalar := by
      intro value hvalue
      rw [List.mem_singleton.mp hvalue]
      trivial
    have hshort := length_encodeDocumentsCursor_le (F := F) last.doc_lt
    rw [listTargetDocuments, if_neg (by simpa using hshort), Option.map_some,
      decodeDocumentsCursor_encodeDocumentsCursor hscalar]
    simp only [DocumentTarget.listDocuments, elasticListDocuments, elasticSearch, Nat.cast_lt,
      Option.map_map]
    rfl

/-- The last page, or a full one whose cursor stands behind its last document. -/
theorem ElasticStands.page_cases (h : ElasticStands F docs cursor rows) (hlimit : 1 ≤ limit)
    {page : Page (DocumentHit F) (List Char × Option String)}
    (hpage : listTargetDocuments F (.elastic docs) limit cursor = some page) :
    (rows.length ≤ limit ∧ page.hasMore = false ∧
      (page.data.map fun hit => (hit.docId, hit.sort)) = rows.map ElasticDocument.row) ∨
    (∃ first last rest, rows = first ++ last :: rest ∧ rest ≠ [] ∧ first.length + 1 = limit ∧
      page.hasMore = true ∧
      (page.data.map fun hit => (hit.docId, hit.sort)) =
        (first ++ [last]).map ElasticDocument.row ∧
      page.nextCursor = some (encodeDocumentsCursor [Json.int last.doc (F := F)], none)) := by
  rw [h.respond] at hpage
  obtain ⟨hits, hhits, rfl⟩ := Option.map_eq_some_iff.mp hpage
  have hmap := map_documentHits hhits
  have hlength := congrArg List.length hmap
  simp only [List.length_map, List.length_take] at hlength
  rcases Nat.lt_or_ge limit rows.length with hlong | hshort
  · obtain ⟨first, last, htake, hrows⟩ := exists_take_eq hlimit (Nat.le_of_lt hlong)
    have hvisible : ((hits.take limit).map fun hit => (hit.docId, hit.sort)) =
        first.map ElasticDocument.row ++ [last.row] := by
      rw [List.map_take, hmap, ← List.map_take, List.take_take, Nat.min_eq_left (by omega), htake,
        List.map_append, List.map_singleton]
    obtain ⟨firstHits, lastHit, hsplit, hfirst, hlast⟩ := exists_concat_of_map hvisible
    rw [pageOfOverFetch_of_lt (by omega) hsplit]
    have hfirstLength := congrArg List.length htake
    rw [List.length_take, List.length_append, List.length_singleton] at hfirstLength
    refine .inr ⟨first, last, rows.drop limit, hrows, ?_, by omega, rfl, ?_, ?_⟩
    · rw [Ne, List.drop_eq_nil_iff]
      omega
    · rw [List.map_append, hfirst, List.map_singleton, hlast, List.map_append, List.map_singleton]
    · have hsort : lastHit.sort = [Json.int last.doc] := congrArg Prod.snd hlast
      simp only [hsort]
  · rw [pageOfOverFetch_of_le (by omega)]
    refine .inl ⟨hshort, rfl, ?_⟩
    rw [hmap, List.take_of_length_le (by omega)]

omit [PyFloat F] in
/-- The documents are sorted by their places. -/
theorem pairwise_sortByDoc (docs : List ElasticDocument) :
    (sortByDoc docs).Pairwise fun a b => a.doc ≤ b.doc := by
  refine (SqlOrder.pairwise_sort _ docs).imp fun h => ?_
  simpa [SqlOrder.comap, SqlOrder.ofLinearOrder] using h

theorem ElasticStands.pairwise (h : ElasticStands F docs cursor rows) :
    rows.Pairwise fun a b => a.doc ≤ b.doc := by
  cases h with
  | start => exact pairwise_sortByDoc docs
  | behind last => exact (pairwise_sortByDoc docs).filter _

/-- The search behind a document leaves out those behind it with its sort value. -/
theorem ElasticStands.filter_eq (h : ElasticStands F docs cursor rows)
    {first rest : List ElasticDocument} {last : ElasticDocument}
    (hrows : rows = first ++ last :: rest) :
    ((sortByDoc docs).filter fun d => decide (last.doc < d.doc)) =
      rest.filter fun d => decide (last.doc < d.doc) := by
  have hsorted := h.pairwise
  have hsame : ((sortByDoc docs).filter fun d => decide (last.doc < d.doc)) =
      rows.filter fun d => decide (last.doc < d.doc) := by
    cases h with
    | start => rfl
    | behind earlier =>
      have hlast : last ∈ (sortByDoc docs).filter fun d => decide (earlier.doc < d.doc) := by
        rw [hrows]
        exact List.mem_append_right _ List.mem_cons_self
      have hlt := of_decide_eq_true (List.mem_filter.mp hlast).2
      rw [List.filter_filter]
      refine List.filter_congr fun d _ => ?_
      by_cases hd : last.doc < d.doc
      · simp [hd, Nat.lt_trans hlt hd]
      · simp [hd]
  rw [hrows] at hsorted
  obtain ⟨-, -, hbefore⟩ := List.pairwise_append.mp hsorted
  have hnone : first.filter (fun d => decide (last.doc < d.doc)) = [] := by
    refine List.filter_eq_nil_iff.mpr fun d hd => ?_
    have hle := hbefore d hd last List.mem_cons_self
    simpa using hle
  rw [hsame, hrows, List.filter_append, hnone, List.nil_append,
    List.filter_cons_of_neg (by simp)]

/-! ### Ties -/

/-- No document that begins a page has the sort value of the one before it. -/
def NoTieAtPageEnd (limit : ℕ) (docs : List ElasticDocument) : Prop :=
  ∀ n last next, 0 < n → limit ∣ n → docs[n - 1]? = some last → docs[n]? = some next →
    last.doc ≠ next.doc

omit [PyFloat F] in
theorem noTieAtPageEnd_of_length_le (h : rows.length ≤ limit) : NoTieAtPageEnd limit rows := by
  intro n last next hpos hdvd _ hnext
  have hle := Nat.le_of_dvd hpos hdvd
  rw [List.getElem?_eq_none (by omega)] at hnext
  cases hnext

/-- The page ends of a listing are the end of its first page and those of the rest. -/
theorem noTieAtPageEnd_append {first rest : List ElasticDocument} {last : ElasticDocument}
    (hlimit : first.length + 1 = limit) :
    NoTieAtPageEnd limit (first ++ last :: rest) ↔
      (∀ next ∈ rest.head?, last.doc ≠ next.doc) ∧ NoTieAtPageEnd limit rest := by
  have hsplit : first ++ last :: rest = (first ++ [last]) ++ rest := List.append_cons _ _ _
  have hlength : (first ++ [last]).length = limit := by
    rw [List.length_append, List.length_singleton, hlimit]
  have hlast : (first ++ last :: rest)[limit - 1]? = some last := by
    rw [← hlimit, Nat.add_sub_cancel, List.getElem?_append_right (Nat.le_refl _), Nat.sub_self]
    rfl
  have hnext : ∀ i, (first ++ last :: rest)[limit + i]? = rest[i]? := by
    intro i
    rw [hsplit, List.getElem?_append_right (by omega), hlength, Nat.add_sub_cancel_left]
  constructor
  · intro h
    constructor
    · intro next hhead
      refine h limit last next (by omega) (Nat.dvd_refl _) hlast ?_
      rw [← Nat.add_zero limit, hnext, ← List.head?_eq_getElem?]
      exact hhead
    · intro n a b hpos hdvd ha hb
      refine h (limit + n) a b (by omega) (Nat.dvd_add (Nat.dvd_refl _) hdvd) ?_ ?_
      · rw [Nat.add_sub_assoc hpos, hnext, ha]
      · rw [hnext, hb]
  · rintro ⟨hhead, hrest⟩ n a b hpos hdvd ha hb
    have hle := Nat.le_of_dvd hpos hdvd
    rcases Nat.eq_or_lt_of_le hle with rfl | hlt
    · rw [hlast] at ha
      obtain rfl := Option.some.inj ha
      rw [← Nat.add_zero limit, hnext, ← List.head?_eq_getElem?] at hb
      exact hhead b hb
    · refine hrest (n - limit) a b (by omega) (Nat.dvd_sub hdvd (Nat.dvd_refl _)) ?_ ?_
      · rw [← hnext, ← ha]
        congr 1
        omega
      · rw [← hnext, ← hb]
        congr 1
        omega

/-! ### Runs -/

/-- A client receives no more documents than the cursor stands before, and as many only if no
page ends between documents with one sort value. -/
theorem ElasticStands.follows {pages : List (Page (DocumentHit F) (List Char × Option String))}
    (hfollows : Follows (listTargetDocuments F (.elastic docs) limit) cursor pages)
    (hlimit : 1 ≤ limit) (h : ElasticStands F docs cursor rows) :
    (rowsOf pages).length ≤ rows.length ∧
      ((rowsOf pages).length = rows.length → NoTieAtPageEnd limit rows) := by
  induction hfollows generalizing rows with
  | @last cursor page hpage hmore =>
    rcases h.page_cases hlimit hpage with ⟨hshort, -, hdata⟩ | ⟨-, -, -, -, -, -, hmore', -⟩
    · have hlength := congrArg List.length hdata
      simp only [List.length_map] at hlength
      constructor
      · simp [rowsOf, hlength]
      · exact fun _ => noTieAtPageEnd_of_length_le hshort
    · rw [hmore'] at hmore
      cases hmore
  | @next cursor page next pages hpage hmore hnext hrest ih =>
    rcases h.page_cases hlimit hpage with ⟨-, hmore', -⟩ |
      ⟨first, last, rest, hrows, -, hfirst, -, hdata, hnext'⟩
    · rw [hmore'] at hmore
      cases hmore
    · rw [hnext'] at hnext
      obtain rfl := Option.some.inj hnext
      have hfilter := h.filter_eq hrows
      obtain ⟨hle, htie⟩ := ih (.behind last)
      rw [hfilter] at hle htie
      have hfiltered : (rest.filter fun d => decide (last.doc < d.doc)).length ≤ rest.length :=
        List.length_filter_le _ _
      have hdataLength := congrArg List.length hdata
      simp only [List.length_map, List.length_append, List.length_singleton] at hdataLength
      have hlength : (rowsOf (page :: pages)).length = limit + (rowsOf pages).length := by
        simp only [rowsOf, List.flatMap_cons, List.length_append]
        omega
      have hrowsLength : rows.length = limit + rest.length := by
        rw [hrows, List.length_append, List.length_cons]
        omega
      constructor
      · omega
      · intro heq
        have hall : rest.filter (fun d => decide (last.doc < d.doc)) = rest :=
          List.filter_sublist.eq_of_length (by omega)
        have hlater := List.filter_eq_self.mp hall
        rw [hall] at htie
        rw [hrows, noTieAtPageEnd_append hfirst]
        refine ⟨fun d hd => ?_, htie (by omega)⟩
        exact Nat.ne_of_lt (of_decide_eq_true (hlater d (List.mem_of_mem_head? hd)))

/-- A client receives the documents behind a cursor if no page ends in a tie. -/
theorem ElasticStands.page_shows (hlimit : 1 ≤ limit)
    (hids : ∀ d ∈ docs, d.docId ≠ "") (h : ElasticStands F docs cursor rows)
    (htie : NoTieAtPageEnd limit rows) {hits : List (DocumentHit F)}
    (hhits : (hits.map fun hit => (hit.docId, hit.sort)) = rows.map ElasticDocument.row) :
    ∃ page, listTargetDocuments F (.elastic docs) limit cursor = some page ∧
      page.Shows (fun next rest => ∃ rows, ElasticStands F docs (some next) rows ∧
        NoTieAtPageEnd limit rows ∧
          (rest.map fun hit => (hit.docId, hit.sort)) = rows.map ElasticDocument.row) hits := by
  have hmem : ∀ row ∈ (rows.take (limit + 1)).map (ElasticDocument.row (F := F)), row.1 ≠ "" := by
    intro row hrow
    obtain ⟨d, hd, rfl⟩ := List.mem_map.mp hrow
    have hrows : d ∈ sortByDoc docs := by
      cases h with
      | start => exact List.mem_of_mem_take hd
      | behind last => exact List.mem_of_mem_filter (List.mem_of_mem_take hd)
    exact hids d ((SqlOrder.mem_sort _).mp hrows)
  obtain ⟨shown, hshown⟩ := exists_documentHits hmem
  have hpage : listTargetDocuments F (.elastic docs) limit cursor = some (pageOfOverFetch
      (fun hit => (encodeDocumentsCursor hit.sort, none)) limit docs.length shown) := by
    rw [h.respond, hshown, Option.map_some]
  refine ⟨_, hpage, ?_⟩
  rcases h.page_cases hlimit hpage with ⟨-, hmore, hdata⟩ |
    ⟨first, last, rest, hrows, hne, hfirst, hmore, hdata, hnext⟩
  · rw [← hdata] at hhits
    rw [eq_of_map_eq hhits]
    exact .all hmore
  · have hsplit : rows.map (ElasticDocument.row (F := F)) =
        (first ++ [last]).map ElasticDocument.row ++ rest.map ElasticDocument.row := by
      rw [hrows, List.append_cons, List.map_append]
    rw [hsplit] at hhits
    obtain ⟨data, behind, rfl, hdata', hbehind⟩ := List.map_eq_append_iff.mp hhits
    rw [← hdata] at hdata'
    obtain rfl := eq_of_map_eq hdata'
    rw [hrows, noTieAtPageEnd_append hfirst] at htie
    obtain ⟨hhead, hrest⟩ := htie
    have hsorted := h.pairwise
    rw [hrows] at hsorted
    obtain ⟨hlast, hrestSorted⟩ := List.pairwise_cons.mp (List.pairwise_append.mp hsorted).2.1
    -- the first document behind the page has a greater sort value, and so have the others
    have hall : rest.filter (fun d => decide (last.doc < d.doc)) = rest := by
      cases rest with
      | nil => rfl
      | cons next rest =>
        have hlt : last.doc < next.doc :=
          Nat.lt_of_le_of_ne (hlast next List.mem_cons_self) (hhead next rfl)
        refine List.filter_eq_self.mpr fun d hd => decide_eq_true ?_
        rcases List.mem_cons.mp hd with rfl | hd
        · exact hlt
        · exact Nat.lt_of_lt_of_le hlt ((List.pairwise_cons.mp hrestSorted).1 d hd)
    have hstands : ElasticStands F docs _ _ := ElasticStands.behind last
    rw [h.filter_eq hrows, hall] at hstands
    refine .part hmore ?_ hnext ⟨rest, hstands, hrest, hbehind⟩
    intro hnil
    have hlength := congrArg List.length hdata
    rw [hnil] at hlength
    simp at hlength

end Elastic

/-! ## Solr -/

section Solr

variable [PyFloat F] {engine : SolrEngine} {docs : List String} {limit : ℕ}

/-- The row of an id. -/
def solrRow (id : String) : String × List (Json F) := (id, [Json.str id])

theorem solr_first (engine : SolrEngine) (docs : List String) (limit : ℕ) :
    listTargetDocuments F (.solr engine docs) limit none =
      (documentHits (((engine.order.sort docs).take (limit + 1)).map solrRow)).map
        (pageOfOverFetch (fun hit => (encodeDocumentsCursor hit.sort,
          ((engine.order.sort docs).take (limit + 1)).getLast?)) limit docs.length) := by
  rw [listTargetDocuments, if_neg (by simp)]
  simp only [Option.map_none, Option.bind_none, decodeIfPresent, DocumentTarget.listDocuments,
    solrListDocuments, solrCursorMark, solrSelect, if_true, Option.map_map]
  rfl

omit [PyFloat F] in
theorem map_docId_of_hits {rows : List String} {hits : List (DocumentHit F)}
    (h : documentHits (rows.map solrRow) = some hits) : hits.map DocumentHit.docId = rows := by
  have hmap := congrArg (List.map Prod.fst) (map_documentHits h)
  have hid : rows.map (Prod.fst ∘ solrRow (F := F)) = rows := List.map_id rows
  rwa [List.map_map, List.map_map, hid] at hmap

/-- Solr answers a cursor with its first page again, or with documents behind the place at which
the page before ended. -/
theorem solr_next {token : List Char} {place : String}
    {page : Page (DocumentHit F) (List Char × Option String)}
    (hpage : listTargetDocuments F (.solr engine docs) limit (some (token, some place)) =
      some page) :
    page.data.map DocumentHit.docId = (engine.order.sort docs).take limit ∨
      ((∀ hit ∈ page.data, engine.order.lt place hit.docId = true) ∧
        ∀ next ∈ page.nextCursor, ∃ place', next.2 = some place' ∧
          (place' = place ∨ engine.order.lt place place' = true)) := by
  rw [listTargetDocuments] at hpage
  split at hpage
  · cases hpage
  split at hpage
  · cases hpage
  rename_i searchAfter _
  simp only [DocumentTarget.listDocuments, solrListDocuments, Option.bind_some] at hpage
  split at hpage
  · cases hpage
  rename_i solrPage hselect
  obtain ⟨result, hresult, rfl⟩ := Option.map_eq_some_iff.mp hpage
  obtain ⟨hits, hhits, rfl⟩ := Option.map_eq_some_iff.mp hresult
  have hids := map_docId_of_hits hhits
  have hdata : ∀ cursorOf : DocumentHit F → List Char × Option String, ∀ total,
      (pageOfOverFetch cursorOf limit total hits).data.map DocumentHit.docId =
        solrPage.docs.take limit := by
    intro cursorOf total
    rw [pageOfOverFetch, List.map_take, hids]
  rw [solrSelect] at hselect
  split at hselect
  · left
    obtain rfl := Option.some.inj hselect
    rw [hdata, List.take_take, Nat.min_eq_left (Nat.le_succ limit)]
  · right
    simp only at hselect
    split at hselect
    · obtain rfl := Option.some.inj hselect
      constructor
      · intro hit hhit
        have hmem := List.mem_map_of_mem (f := DocumentHit.docId) hhit
        rw [hdata] at hmem
        exact (List.mem_filter.mp (List.mem_of_mem_take (List.mem_of_mem_take hmem))).2
      · intro next hnext
        have hplace : next.2 = some ((((engine.order.sort docs).filter
            (engine.order.lt place)).take (limit + 1)).getLast?.getD place) := by
          rw [pageOfOverFetch] at hnext
          simp only at hnext
          split at hnext
          · obtain ⟨hit, -, rfl⟩ := Option.map_eq_some_iff.mp hnext
            rfl
          · cases hnext
        refine ⟨_, hplace, ?_⟩
        cases hlast : (((engine.order.sort docs).filter
            (engine.order.lt place)).take (limit + 1)).getLast? with
        | none => exact .inl rfl
        | some last =>
          have hmem := List.mem_of_mem_take (List.mem_of_getLast? hlast)
          exact .inr (List.mem_filter.mp hmem).2
    · cases hselect

/-- From a place on, a client receives the first page again, or never the document at the
place. -/
theorem solr_follows {cursor : Option (List Char × Option String)}
    {pages : List (Page (DocumentHit F) (List Char × Option String))}
    (hfollows : Follows (listTargetDocuments F (.solr engine docs) limit) cursor pages)
    {token : List Char} {place doc : String} (hcursor : cursor = some (token, some place))
    (hdoc : place = doc ∨ engine.order.lt doc place = true) :
    (∃ page ∈ pages, page.data.map DocumentHit.docId = (engine.order.sort docs).take limit) ∨
      doc ∉ (rowsOf pages).map DocumentHit.docId := by
  have hbehind : ∀ {place}, (place = doc ∨ engine.order.lt doc place = true) →
      ∀ {id}, engine.order.lt place id = true → engine.order.lt doc id = true := by
    rintro place (rfl | hlt) id hid
    · exact hid
    · exact engine.order.lt_trans hlt hid
  have hmissing : ∀ {place} {data : List (DocumentHit F)},
      (place = doc ∨ engine.order.lt doc place = true) →
      (∀ hit ∈ data, engine.order.lt place hit.docId = true) →
      doc ∉ data.map DocumentHit.docId := by
    intro place data hdoc hdata hmem
    obtain ⟨hit, hhit, rfl⟩ := List.mem_map.mp hmem
    have hlt := hbehind hdoc (hdata hit hhit)
    rw [SqlOrder.lt_irrefl] at hlt
    cases hlt
  induction hfollows generalizing token place with
  | @last cursor page hpage hmore =>
    subst hcursor
    rcases solr_next hpage with hagain | ⟨hdata, -⟩
    · exact .inl ⟨page, List.mem_cons_self, hagain⟩
    · right
      rw [rowsOf, List.flatMap_singleton]
      exact hmissing hdoc hdata
  | @next cursor page next pages hpage hmore hnext hrest ih =>
    subst hcursor
    rcases solr_next hpage with hagain | ⟨hdata, hplace⟩
    · exact .inl ⟨page, List.mem_cons_self, hagain⟩
    · obtain ⟨place', hplace', hlater⟩ := hplace next hnext
      have hdoc' : place' = doc ∨ engine.order.lt doc place' = true := by
        rcases hlater with rfl | hlater
        · exact hdoc
        · exact .inr (hbehind hdoc hlater)
      have hnext' : some next = some (next.1, some place') := by rw [← hplace']
      rcases ih hnext' hdoc' with ⟨page', hmem, hagain⟩ | hnot
      · exact .inl ⟨page', List.mem_cons_of_mem _ hmem, hagain⟩
      · right
        rw [rowsOf, List.flatMap_cons, List.map_append, List.mem_append, not_or]
        exact ⟨hmissing hdoc hdata, hnot⟩

/-- The first page of Solr. -/
theorem solr_first_cases (engine : SolrEngine) (docs : List String) (hlimit : 1 ≤ limit)
    {page : Page (DocumentHit F) (List Char × Option String)}
    (hpage : listTargetDocuments F (.solr engine docs) limit none = some page) :
    (docs.length ≤ limit ∧ page.hasMore = false ∧
      page.data.map DocumentHit.docId = engine.order.sort docs) ∨
    (page.hasMore = true ∧ page.data.map DocumentHit.docId = (engine.order.sort docs).take limit ∧
      ∃ doc, (engine.order.sort docs)[limit]? = some doc ∧
        ∀ next ∈ page.nextCursor, next.2 = some doc) := by
  have hsort := (engine.order.sort_perm docs).length_eq
  rw [solr_first] at hpage
  obtain ⟨hits, hhits, rfl⟩ := Option.map_eq_some_iff.mp hpage
  have hids := map_docId_of_hits hhits
  have hlength := congrArg List.length hids
  rw [List.length_map, List.length_take, hsort] at hlength
  rcases Nat.lt_or_ge limit docs.length with hlong | hshort
  · right
    obtain ⟨first, last, htake, -⟩ : ∃ first last, hits.take limit = first ++ [last] ∧
        hits = first ++ last :: hits.drop limit := exists_take_eq hlimit (by omega)
    rw [pageOfOverFetch_of_lt (by omega) htake, ← htake]
    have hlong : limit < (engine.order.sort docs).length := by omega
    have hget := List.getElem?_eq_getElem hlong
    refine ⟨rfl, ?_, _, hget, ?_⟩
    · rw [List.map_take, hids, List.take_take, Nat.min_eq_left (Nat.le_succ limit)]
    · intro next hnext
      obtain rfl := Option.some.inj hnext
      rw [List.take_add_one, hget, Option.toList_some, List.getLast?_concat]
  · left
    rw [pageOfOverFetch_of_le (by omega)]
    refine ⟨hshort, rfl, ?_⟩
    rw [hids, List.take_of_length_le (by omega)]

/-- Solr's documents are received once only if they fit on one page. -/
theorem solr_length_le {docs : List String} (hids : docs.Nodup) (hlimit : 1 ≤ limit)
    {pages : List (Page (DocumentHit F) (List Char × Option String))}
    (hfollows : Follows (listTargetDocuments F (.solr engine docs) limit) none pages)
    (hperm : ((rowsOf pages).map DocumentHit.docId).Perm docs) : docs.length ≤ limit := by
  have hsorted := engine.order.sort_perm docs
  have hnodup := hsorted.nodup_iff.mpr hids
  cases hfollows with
  | last hpage hmore =>
    rcases solr_first_cases engine docs hlimit hpage with ⟨hfits, -⟩ | ⟨hmore', -⟩
    · exact hfits
    · rw [hmore'] at hmore
      cases hmore
  | @next _ page next pages hpage hmore hnext hrest =>
    rcases solr_first_cases engine docs hlimit hpage with ⟨hfits, -⟩ | ⟨-, hdata, doc, hdoc, hplace⟩
    · exact hfits
    · exfalso
      have hnext' : some next = some (next.1, some doc) := by rw [← hplace next hnext]
      rw [rowsOf, List.flatMap_cons, List.map_append, hdata] at hperm
      have hreceived := List.nodup_append.mp (hperm.nodup_iff.mpr hids)
      rcases solr_follows hrest hnext' (.inl rfl) with ⟨page', hmem, hagain⟩ | hnot
      · -- the first page is received twice
        obtain ⟨first, firstRest, hfirst⟩ : ∃ first rest,
            (engine.order.sort docs).take limit = first :: rest := by
          cases htake : (engine.order.sort docs).take limit with
          | nil =>
            have hlength := congrArg List.length htake
            have hlt := (List.getElem?_eq_some_iff.mp hdoc).1
            rw [List.length_take] at hlength
            simp only [List.length_nil] at hlength
            omega
          | cons first rest => exact ⟨first, rest, rfl⟩
        have hmem' : first ∈ (pages.flatMap (·.data)).map DocumentHit.docId := by
          rw [List.map_flatMap]
          refine List.mem_flatMap.mpr ⟨page', hmem, ?_⟩
          rw [hagain, hfirst]
          exact List.mem_cons_self
        refine hreceived.2.2 first ?_ first hmem' rfl
        rw [hfirst]
        exact List.mem_cons_self
      · -- the document behind the page is never received
        have hbehind : doc ∉ (engine.order.sort docs).take limit := by
          intro hmem
          obtain ⟨i, hi, hget⟩ := List.mem_take_iff_getElem.mp hmem
          have hsame : (engine.order.sort docs)[i]? = (engine.order.sort docs)[limit]? := by
            rw [hdoc, ← hget]
            exact List.getElem?_eq_getElem _
          have hindex := (List.getElem?_inj (by omega) hnodup).mp hsame
          omega
        have hmem : doc ∈ docs := hsorted.mem_iff.mp (List.mem_of_getElem? hdoc)
        rcases List.mem_append.mp (hperm.mem_iff.mpr hmem) with hfirst | hlater
        · exact hbehind hfirst
        · exact hnot hlater

end Solr

/-! ## Every document once -/

/-- A client that follows the next cursors receives every document once. -/
def ReceivesEveryDocument (F : Type) [PyFloat F] (target : DocumentTarget) (limit : ℕ) : Prop :=
  ∃ pages, Follows (listTargetDocuments F target limit) none pages ∧
    ((rowsOf pages).map DocumentHit.docId).Perm target.ids

/-- Solr's documents fit on a page, and no page of Elasticsearch ends in a tie. -/
def DocumentTarget.PagesMeet : DocumentTarget → ℕ → Prop
  | elastic docs, limit => NoTieAtPageEnd limit (sortByDoc docs)
  | solr _ docs, limit => docs.length ≤ limit

/-- A client receives every document of a target once if and only if the pages meet, and no id
is empty. -/
theorem receivesEveryDocument_iff [PyFloat F] (target : DocumentTarget) (hids : target.ids.Nodup)
    {limit : ℕ} (hlimit : 1 ≤ limit) :
    ReceivesEveryDocument F target limit ↔
      (∀ id ∈ target.ids, id ≠ "") ∧ target.PagesMeet limit := by
  constructor
  · rintro ⟨pages, hfollows, hperm⟩
    constructor
    · intro id hid
      obtain ⟨hit, -, rfl⟩ := List.mem_map.mp (hperm.mem_iff.mpr hid)
      exact hit.docId_ne
    · cases target with
      | elastic docs =>
        have hlength := hperm.length_eq
        have hsort := (SqlOrder.sort_perm ((SqlOrder.ofLinearOrder : SqlOrder ℕ).comap
          ElasticDocument.doc) docs).length_eq
        simp only [DocumentTarget.ids, List.length_map] at hlength
        refine (ElasticStands.follows hfollows hlimit .start).2 ?_
        rw [hlength, sortByDoc, hsort]
      | solr engine docs => exact solr_length_le hids hlimit hfollows hperm
  · rintro ⟨hne, hmeet⟩
    cases target with
    | elastic docs =>
      have hnames : ∀ row ∈ (sortByDoc docs).map (ElasticDocument.row (F := F)), row.1 ≠ "" := by
        intro row hrow
        obtain ⟨d, hd, rfl⟩ := List.mem_map.mp hrow
        exact hne d.docId (List.mem_map_of_mem ((SqlOrder.mem_sort _).mp hd))
      have hdocs : ∀ d ∈ docs, d.docId ≠ "" := fun d hd =>
        hne d.docId (List.mem_map_of_mem hd)
      obtain ⟨hits, hhits⟩ := exists_documentHits hnames
      have hmap := map_documentHits hhits
      obtain ⟨page, hpage, hshows⟩ := ElasticStands.page_shows hlimit hdocs .start hmeet hmap
      obtain ⟨pages, hfollows, hrows⟩ := exists_follows
        (fun cursor rest ⟨rows, hstands, htie, hrest⟩ =>
          hstands.page_shows hlimit hdocs htie hrest) hpage hshows
      refine ⟨pages, hfollows, ?_⟩
      have hreceived : hits.map DocumentHit.docId = (sortByDoc docs).map ElasticDocument.docId := by
        have h := congrArg (List.map Prod.fst) hmap
        rwa [List.map_map, List.map_map] at h
      rw [hrows, hreceived]
      exact (SqlOrder.sort_perm _ docs).map _
    | solr engine docs =>
      have hnames : ∀ row ∈ ((engine.order.sort docs).take (limit + 1)).map (solrRow (F := F)),
          row.1 ≠ "" := by
        intro row hrow
        obtain ⟨id, hid, rfl⟩ := List.mem_map.mp hrow
        exact hne id ((SqlOrder.mem_sort _).mp (List.mem_of_mem_take hid))
      obtain ⟨hits, hhits⟩ := exists_documentHits hnames
      have hpage := solr_first (F := F) engine docs limit
      rw [hhits, Option.map_some] at hpage
      rcases solr_first_cases engine docs hlimit hpage with ⟨-, hmore, hdata⟩ | ⟨-, -, doc, hdoc, -⟩
      · refine ⟨_, .last hpage hmore, ?_⟩
        rw [rowsOf, List.flatMap_singleton, hdata]
        exact engine.order.sort_perm docs
      · have hlt := (List.getElem?_eq_some_iff.mp hdoc).1
        rw [(engine.order.sort_perm docs).length_eq] at hlt
        exact absurd hmeet (Nat.not_le.mpr hlt)

/-- Solr, with a mark that begins as those of its own do. -/
def sampleSolr : SolrEngine where
  order := SqlOrder.ofLinearOrder
  order_total _ _ := SqlOrder.eq_of_ofLinearOrder
  mark id := "AoE" ++ id

theorem second_document_unreachable :
    ¬ReceivesEveryDocument SampleFloat (.solr sampleSolr ["1", "2"]) 1 := by
  rintro ⟨pages, hfollows, hperm⟩
  have hfits := solr_length_le (by decide) (by decide) hfollows hperm
  exact absurd hfits (by decide)

theorem receivesEveryDocument_iff_twoDocuments :
    ReceivesEveryDocument SampleFloat (.solr sampleSolr ["1", "2"]) 1 ↔
      (∀ id ∈ (DocumentTarget.solr sampleSolr ["1", "2"]).ids, id ≠ "") ∧
        (DocumentTarget.solr sampleSolr ["1", "2"]).PagesMeet 1 :=
  receivesEveryDocument_iff (.solr sampleSolr ["1", "2"]) (by decide) (by decide)

end RelyLoop.Paging
