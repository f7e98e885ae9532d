import RelyLoop.Paging.Following
import RelyLoop.Paging.Listing

/-!
# Documents of a target

The router of the document browser asks an adapter for one row beyond the page, and writes the
sort values of the last row it shows into the cursor. The adapter of Elasticsearch and OpenSearch
searches after these values. The adapter of Solr takes them for a mark of Solr's own cursor.
-/

namespace RelyLoop.Paging

open Python

variable {F : Type}

/-! ## Adapter pages -/

/-- `AdapterDocumentHit`, whose model refuses an empty id. -/
structure DocumentHit (F : Type) where
  docId : String
  sort : List (Json F)
  docId_ne : docId ≠ ""

/-- `DocumentPage`. -/
structure DocumentPage (F : Type) where
  hits : List (DocumentHit F)
  total : ℕ
  nextCursorToken : Option String

/-- The hits of an engine's rows, unless the model refuses one of them. -/
def documentHits (rows : List (String × List (Json F))) : Option (List (DocumentHit F)) :=
  if h : ∀ row ∈ rows, row.1 ≠ "" then some (rows.pmap (fun row hrow => ⟨row.1, row.2, hrow⟩) h)
  else none

/-! ## Elasticsearch and OpenSearch -/

/-- A document, with its place in its shard. -/
structure ElasticDocument where
  docId : String
  doc : ℕ
  doc_lt : doc < 2 ^ 31
  deriving DecidableEq

/-- The documents sorted by `_doc`. -/
def sortByDoc (docs : List ElasticDocument) : List ElasticDocument :=
  ((SqlOrder.ofLinearOrder : SqlOrder ℕ).comap ElasticDocument.doc).sort docs

/-- A search with `sort: [{"_doc": "asc"}]`: it returns the documents with sort values after
those of `search_after`, and refuses values of another shape. -/
def elasticSearch (docs : List ElasticDocument) (searchAfter : Option (List (Json F)))
    (size : ℕ) : Option (List ElasticDocument) :=
  match searchAfter with
  | none => some ((sortByDoc docs).take size)
  | some [.int doc] =>
    some (((sortByDoc docs).filter fun d => decide (doc < (d.doc : ℤ))).take size)
  | some _ => none

/-- `ElasticAdapter.list_documents`. -/
def elasticListDocuments (docs : List ElasticDocument) (searchAfter : Option (List (Json F)))
    (limit : ℕ) : Option (DocumentPage F) :=
  match elasticSearch docs searchAfter limit with
  | none => none
  | some rows =>
    (documentHits (rows.map fun d => (d.docId, [Json.int d.doc]))).map fun hits =>
      ⟨hits, docs.length, none⟩

/-! ## Solr -/

/-- The order of the unique key, and the mark that Solr returns for the place behind a
document. -/
structure SolrEngine where
  order : SqlOrder String
  order_total : ∀ a b, order.lt a b = false → order.lt b a = false → a = b
  mark : String → String

/-- A page of Solr: its documents, its `nextCursorMark`, and the last document before the place
that the mark stands for. -/
structure SolrPage where
  docs : List String
  nextCursorMark : String
  place : Option String

/-- A request with `cursorMark`, after a page that ended at a place. Solr starts at `*`, goes on
behind the place if the mark is that of the place, and rejects other strings. -/
def solrSelect (engine : SolrEngine) (docs : List String) (place : Option String)
    (cursorMark : String) (rows : ℕ) : Option SolrPage :=
  let sorted := engine.order.sort docs
  if cursorMark = "*" then
    let page := sorted.take rows
    some ⟨page, (page.getLast?.map engine.mark).getD cursorMark, page.getLast?⟩
  else
    match place with
    | none => none
    | some id =>
      if engine.mark id = cursorMark then
        let page := (sorted.filter (engine.order.lt id)).take rows
        some ⟨page, engine.mark (page.getLast?.getD id), some (page.getLast?.getD id)⟩
      else none

/-- `cursor_mark`. -/
def solrCursorMark (searchAfter : Option (List (Json F))) : String :=
  match searchAfter with
  | some (.str first :: _) => if first = "" then "*" else first
  | _ => "*"

/-- `SolrAdapter.list_documents`, with the place at which Solr's page ended. -/
def solrListDocuments (engine : SolrEngine) (docs : List String) (place : Option String)
    (searchAfter : Option (List (Json F))) (limit : ℕ) :
    Option (DocumentPage F × Option String) :=
  let cursorMark := solrCursorMark searchAfter
  match solrSelect engine docs place cursorMark limit with
  | none => none
  | some page =>
    (documentHits (page.docs.map fun id => (id, [Json.str id]))).map fun hits =>
      let nextCursorToken :=
        if page.nextCursorMark = cursorMark then none
        else if hits.length < limit then none
        else some page.nextCursorMark
      (⟨hits, docs.length, nextCursorToken⟩, page.place)

/-! ## The router -/

/-- The contents of a target, by the kind of its engine. -/
inductive DocumentTarget where
  | elastic (docs : List ElasticDocument)
  | solr (engine : SolrEngine) (docs : List String)

/-- The ids of the documents. -/
def DocumentTarget.ids : DocumentTarget → List String
  | elastic docs => docs.map ElasticDocument.docId
  | solr _ docs => docs

/-- `adapter.list_documents`. -/
def DocumentTarget.listDocuments (target : DocumentTarget) (place : Option String)
    (searchAfter : Option (List (Json F))) (limit : ℕ) :
    Option (DocumentPage F × Option String) :=
  match target with
  | elastic docs => (elasticListDocuments docs searchAfter limit).map fun page => (page, none)
  | solr engine docs => solrListDocuments engine docs place searchAfter limit

variable [PyFloat F]

/-- `encode_documents_cursor`. -/
def encodeDocumentsCursor (sort : List (Json F)) : List Char :=
  encodeToken compactSeparators (.list sort)

/-- `decode_documents_cursor`. -/
def decodeDocumentsCursor (raw : List Char) : Option (List (Json F)) :=
  if raw.all fun c => c.toNat < 128 then
    match decodeToken (F := F) raw with
    | some (.list value) => some value
    | _ => none
  else none

/-- `max_length` of the cursor parameter. -/
def maxCursorLength : ℕ := 4096

/-- `GET /clusters/{cluster_id}/targets/{target}/documents`, of a visible target. A request has
the client's cursor, and the place at which the engine's page before it ended. The next cursor
is made from the sort values of the last row, and not from the token of the page. -/
def listTargetDocuments (F : Type) [PyFloat F] (target : DocumentTarget) (limit : ℕ)
    (cursor : Option (List Char × Option String)) :
    Option (Page (DocumentHit F) (List Char × Option String)) :=
  if ∃ raw ∈ cursor, maxCursorLength < raw.1.length then none
  else
    match decodeIfPresent (decodeDocumentsCursor (F := F)) (cursor.map Prod.fst) with
    | none => none
    | some searchAfter =>
      (target.listDocuments (cursor.bind Prod.snd) searchAfter (limit + 1)).map fun (page, place) =>
        pageOfOverFetch (fun hit => (encodeDocumentsCursor hit.sort, place)) limit page.total
          page.hits

end RelyLoop.Paging
