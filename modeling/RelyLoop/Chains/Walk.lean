import RelyLoop.Proposals.ProposalState
import RelyLoop.Studies.Records
import Mathlib.Data.List.MinMax
import Mathlib.Data.Prod.Lex
import Mathlib.Order.RelIso.Basic

/-!
# The walk along a chain of studies

`get_chain_for_study` walks from a study up to the root of its chain and from
there down again, one child for each parent, and loads the links it came by. The
walk up is capped at ten hops and the walk down at five descendants, so of a
longer chain it returns a part.
-/

namespace RelyLoop.Chains

open Studies Proposals

/-- A row of the `studies` table, with its id. -/
abbrev StudyRow := ℕ × Study

/-- A row of the `proposals` table, with its id and its creation time. -/
structure ProposalRow where
  id : ℕ
  createdAt : ℕ
  row : Proposal
  deriving DecidableEq, Repr

/-- The tables that a chain is read from. -/
structure Tables where
  studies : List StudyRow
  trials : List Trial := []
  proposals : List ProposalRow := []
  deriving DecidableEq, Repr

/-- The row of a study. -/
def studyOf (studies : List StudyRow) (studyId : ℕ) : Option Study :=
  (studies.find? fun row => row.1 == studyId).map Prod.snd

/-- `studies.parent_study_id` of a study. -/
def parentOf (studies : List StudyRow) (studyId : ℕ) : Option ℕ :=
  (studyOf studies studyId).bind Study.parentStudyId

/-- The key `(created_at, id)`. -/
def creationKey (row : StudyRow) : ℕ ×ₗ ℕ := toLex (row.2.createdAt, row.1)

/-- `ORDER BY created_at ASC, id ASC`. -/
def byCreation (rows : List StudyRow) : List StudyRow :=
  rows.insertionSort (Order.Preimage creationKey (· ≤ ·))

/-- The children of a study, the oldest first. -/
def childrenOf (studies : List StudyRow) (parentId : ℕ) : List StudyRow :=
  byCreation (studies.filter fun row => row.2.parentStudyId == some parentId)

/-- `_CHAIN_UPWARD_HOP_CAP`. -/
def chainUpwardHopCap : ℕ := 10

/-- `_CHAIN_MAX_DESCENDANTS`. -/
def chainMaxDescendants : ℕ := 5

/-- The walk to the root ancestor; `hops` of its cap are left. -/
def upwardWalk (studies : List StudyRow) : ℕ → List ℕ → ℕ → ℕ
  | 0, _, anchorId => anchorId
  | hops + 1, visited, anchorId =>
    match parentOf studies anchorId with
    | none => anchorId
    | some parentId =>
      if parentId ∈ visited then anchorId
      else if (studyOf studies parentId).isNone then anchorId
      else upwardWalk studies hops (parentId :: visited) parentId

/-- The walk down from `cur`, along the oldest children; `descendants` of its cap are left. -/
def downwardWalk (studies : List StudyRow) : ℕ → List ℕ → ℕ → List ℕ
  | 0, _, _ => []
  | descendants + 1, visited, cur =>
    match (childrenOf studies cur).head? with
    | none => []
    | some next =>
      if next.1 ∈ visited then []
      else next.1 :: downwardWalk studies descendants (next.1 :: visited) next.1

/-- The ids of the links below and including the anchor. -/
def linkIds (studies : List StudyRow) (studyId : ℕ) : List ℕ :=
  let anchorId := upwardWalk studies chainUpwardHopCap [studyId] studyId
  anchorId :: downwardWalk studies chainMaxDescendants [anchorId] anchorId

/-- The rows of the links, the oldest first. -/
def hydrate (studies : List StudyRow) (ids : List ℕ) : List StudyRow :=
  byCreation (studies.filter fun row => row.1 ∈ ids)

/-- The newest proposal of a study that is neither rejected nor superseded. -/
def newestProposal (proposals : List ProposalRow) (studyId : ℕ) : Option ProposalRow :=
  (proposals.filter fun proposal => proposal.row.studyId == some studyId &&
    proposal.row.status != .rejected && proposal.row.status != .superseded).argmax
      fun proposal => toLex (proposal.createdAt, proposal.id)

/-- `ChainTraversalResult`. -/
structure ChainTraversalResult where
  anchorId : ℕ
  links : List StudyRow
  proposalIdByLinkId : List (ℕ × ℕ)
  anchorTrials : Option (List Trial)
  deriving DecidableEq, Repr

/-- The rows of a study's trials with status `complete`. -/
def completeTrialsOf (trials : List Trial) (studyId : ℕ) : List Trial :=
  trials.filter fun trial => trial.studyId == studyId && trial.status == .complete

/-- `get_chain_for_study`. -/
def getChainForStudy (db : Tables) (studyId : ℕ) : Option ChainTraversalResult :=
  if (studyOf db.studies studyId).isNone then none
  else
    let ids := linkIds db.studies studyId
    match hydrate db.studies ids with
    | [] => none
    | anchor :: rest =>
      some
        { anchorId := anchor.1
          links := anchor :: rest
          proposalIdByLinkId := ids.filterMap fun id =>
            (newestProposal db.proposals id).map fun proposal => (id, proposal.id)
          anchorTrials :=
            if anchor.2.baselineMetric.isNone then some (completeTrialsOf db.trials anchor.1)
            else none }

/-- A traversal has the rows of the links that the walk came by. -/
theorem links_of_getChainForStudy {db : Tables} {studyId : ℕ} {traversal : ChainTraversalResult}
    (h : getChainForStudy db studyId = some traversal) :
    traversal.links = hydrate db.studies (linkIds db.studies studyId) ∧ traversal.links ≠ [] := by
  unfold getChainForStudy at h
  split at h
  · cases h
  · dsimp only at h
    split at h
    · cases h
    next hlinks =>
      cases h
      exact ⟨hlinks.symm, List.cons_ne_nil _ _⟩

/-! ## Linear chains -/

/-- `chain` lists the studies of a linear chain, the root first: no study outside
the list is a parent or a child of one inside. -/
structure LinearChain (studies : List StudyRow) (chain : List ℕ) : Prop where
  keys : (studies.map Prod.fst).Nodup
  nodup : chain.Nodup
  present : ∀ studyId ∈ chain, ∃ study, (studyId, study) ∈ studies
  root : ∀ studyId, chain[0]? = some studyId → parentOf studies studyId = none
  linked : ∀ i parent child, chain[i]? = some parent → chain[i + 1]? = some child →
    parentOf studies child = some parent
  onlyChild : ∀ row ∈ studies, ∀ i parent, chain[i]? = some parent →
    row.2.parentStudyId = some parent → chain[i + 1]? = some row.1

/-- The part of a chain that the walk from its `i`-th study returns. -/
def walked (chain : List ℕ) (i : ℕ) : List ℕ :=
  (chain.drop (i - chainUpwardHopCap)).take (chainMaxDescendants + 1)

variable {studies : List StudyRow} {chain : List ℕ} {row : StudyRow} {rows : List StudyRow}
  {studyId i : ℕ} {study : Study}

@[simp] theorem mem_byCreation : row ∈ byCreation rows ↔ row ∈ rows :=
  List.mem_insertionSort _

theorem pairwise_byCreation (rows : List StudyRow) :
    (byCreation rows).Pairwise (Order.Preimage creationKey (· ≤ ·)) :=
  List.pairwise_insertionSort _ _

@[simp] theorem mem_hydrate {ids : List ℕ} :
    row ∈ hydrate studies ids ↔ row ∈ studies ∧ row.1 ∈ ids := by
  simp [hydrate]

@[simp] theorem mem_childrenOf {parentId : ℕ} :
    row ∈ childrenOf studies parentId ↔ row ∈ studies ∧ row.2.parentStudyId = some parentId := by
  simp [childrenOf]

/-- The id names one row. -/
theorem studyOf_eq_some_iff (hkeys : (studies.map Prod.fst).Nodup) :
    studyOf studies studyId = some study ↔ (studyId, study) ∈ studies := by
  constructor
  · intro h
    obtain ⟨row, hfind, rfl⟩ := Option.map_eq_some_iff.mp h
    have hid : row.1 = studyId := by simpa using List.find?_some hfind
    have hmem := List.mem_of_find?_eq_some hfind
    rwa [← hid]
  · intro hmem
    have hsome : (studies.find? fun row => row.1 == studyId).isSome := by
      rw [List.find?_isSome]
      exact ⟨_, hmem, by simp⟩
    obtain ⟨found, hfind⟩ := Option.isSome_iff_exists.mp hsome
    have hid : found.1 = studyId := by simpa using List.find?_some hfind
    have hsame : found = (studyId, study) :=
      List.inj_on_of_nodup_map hkeys (List.mem_of_find?_eq_some hfind) hmem hid
    rw [studyOf, hfind, hsame]
    rfl

theorem LinearChain.studyOf_isSome (h : LinearChain studies chain) (hmem : studyId ∈ chain) :
    ∃ study, studyOf studies studyId = some study := by
  obtain ⟨study, hrow⟩ := h.present studyId hmem
  exact ⟨study, (studyOf_eq_some_iff h.keys).mpr hrow⟩

/-- Going up, the walk stops at the root or after its last hop. -/
theorem LinearChain.upwardWalk_eq (h : LinearChain studies chain) (hops : ℕ) :
    ∀ i cur visited, chain[i]? = some cur →
      (∀ j < i, ∀ other, chain[j]? = some other → other ∉ visited) →
      chain[i - hops]? = some (upwardWalk studies hops visited cur) := by
  induction hops with
  | zero => intro i cur visited hcur _; simpa [upwardWalk] using hcur
  | succ hops ih =>
    intro i cur visited hcur hvisited
    cases i with
    | zero => simpa [upwardWalk, h.root cur hcur] using hcur
    | succ i =>
      have hlt : i + 1 < chain.length := (List.getElem?_eq_some_iff.mp hcur).1
      have hparent : chain[i]? = some chain[i] := List.getElem?_eq_getElem (by omega)
      have hfresh : chain[i] ∉ visited := hvisited i (by omega) _ hparent
      obtain ⟨parent, hrow⟩ := h.studyOf_isSome (List.getElem_mem (by omega : i < chain.length))
      have hstep : upwardWalk studies (hops + 1) visited cur =
          upwardWalk studies hops (chain[i] :: visited) chain[i] := by
        simp [upwardWalk, h.linked i _ _ hparent hcur, hfresh, hrow]
      rw [hstep, Nat.add_sub_add_right]
      refine ih i _ _ hparent fun j hj other hother => ?_
      have hold := hvisited j (by omega) other hother
      rw [List.mem_cons, not_or]
      refine ⟨fun heq => ?_, hold⟩
      have hji : j = i := (List.getElem?_inj (by omega) h.nodup).mp (hother.trans (heq ▸ hparent.symm))
      omega

/-- The oldest child of a link is the next link. -/
theorem LinearChain.childrenOf_head? (h : LinearChain studies chain) {cur : ℕ}
    (hcur : chain[i]? = some cur) :
    (childrenOf studies cur).head?.map Prod.fst = chain[i + 1]? := by
  cases hchildren : childrenOf studies cur with
  | nil =>
    cases hnext : chain[i + 1]? with
    | none => rfl
    | some child =>
      obtain ⟨study, hrow⟩ := h.present child (List.mem_of_getElem? hnext)
      have hparent := h.linked i cur child hcur hnext
      rw [parentOf, (studyOf_eq_some_iff h.keys).mpr hrow] at hparent
      have hmem : (child, study) ∈ childrenOf studies cur := mem_childrenOf.mpr ⟨hrow, hparent⟩
      simp [hchildren] at hmem
  | cons first rest =>
    have hmem : first ∈ childrenOf studies cur := by simp [hchildren]
    obtain ⟨hrow, hparent⟩ := mem_childrenOf.mp hmem
    exact (h.onlyChild first hrow i cur hcur hparent).symm

/-- Going down, the walk takes the following links, up to its cap. -/
theorem LinearChain.downwardWalk_eq (h : LinearChain studies chain) (descendants : ℕ) :
    ∀ i cur visited, chain[i]? = some cur →
      (∀ j, i < j → ∀ other, chain[j]? = some other → other ∉ visited) →
      downwardWalk studies descendants visited cur = (chain.drop (i + 1)).take descendants := by
  induction descendants with
  | zero => intro i cur visited _ _; simp [downwardWalk]
  | succ descendants ih =>
    intro i cur visited hcur hvisited
    have hnext := h.childrenOf_head? hcur
    cases hhead : (childrenOf studies cur).head? with
    | none =>
      rw [hhead, Option.map_none] at hnext
      have hend : chain.length ≤ i + 1 := List.getElem?_eq_none_iff.mp hnext.symm
      simp [downwardWalk, hhead, List.drop_eq_nil_of_le hend]
    | some next =>
      rw [hhead, Option.map_some] at hnext
      have hfresh : next.1 ∉ visited := hvisited (i + 1) (by omega) _ hnext.symm
      have hrest := ih (i + 1) next.1 (next.1 :: visited) hnext.symm fun j hj other hother => by
        rw [List.mem_cons, not_or]
        refine ⟨fun heq => ?_, hvisited j (by omega) other hother⟩
        have hlt : j < chain.length := (List.getElem?_eq_some_iff.mp hother).1
        have hji : j = i + 1 :=
          (List.getElem?_inj hlt h.nodup).mp (hother.trans (heq ▸ hnext))
        omega
      obtain ⟨hlt, hget⟩ := List.getElem?_eq_some_iff.mp hnext.symm
      rw [List.drop_eq_getElem_cons hlt, List.take_succ_cons, hget]
      simp [downwardWalk, hhead, hfresh, hrest]

/-- The links that the walk comes by. -/
theorem LinearChain.linkIds_eq (h : LinearChain studies chain) (hstudy : chain[i]? = some studyId) :
    linkIds studies studyId = walked chain i := by
  have hup := h.upwardWalk_eq chainUpwardHopCap i studyId [studyId] hstudy
    fun j hj other hother => by
      rw [List.mem_singleton]
      rintro rfl
      have hlt : j < chain.length := (List.getElem?_eq_some_iff.mp hother).1
      have hji : j = i := (List.getElem?_inj hlt h.nodup).mp (hother.trans hstudy.symm)
      omega
  obtain ⟨hlt, hget⟩ := List.getElem?_eq_some_iff.mp hup
  have hdown := h.downwardWalk_eq chainMaxDescendants _ _
    [upwardWalk studies chainUpwardHopCap [studyId] studyId] hup fun j hj other hother => by
      rw [List.mem_singleton]
      rintro rfl
      have hlt' : j < chain.length := (List.getElem?_eq_some_iff.mp hother).1
      have hji := (List.getElem?_inj hlt' h.nodup).mp (hother.trans hup.symm)
      omega
  rw [linkIds, hdown, walked, List.drop_eq_getElem_cons hlt, List.take_succ_cons, hget]

/-- The walk from a link of a chain returns the links around it, the oldest first. -/
theorem LinearChain.getChainForStudy_eq {db : Tables} (h : LinearChain db.studies chain)
    (hstudy : chain[i]? = some studyId) :
    ∃ anchor rest traversal, hydrate db.studies (walked chain i) = anchor :: rest ∧
      getChainForStudy db studyId = some traversal ∧ traversal.links = anchor :: rest ∧
      traversal.anchorTrials =
        if anchor.2.baselineMetric.isNone then some (completeTrialsOf db.trials anchor.1)
        else none := by
  obtain ⟨study, hrow⟩ := h.studyOf_isSome (List.mem_of_getElem? hstudy)
  have hids := h.linkIds_eq hstudy
  have hstart : linkIds db.studies studyId ≠ [] := by simp [linkIds]
  cases hlinks : hydrate db.studies (walked chain i) with
  | nil =>
    obtain ⟨first, rest, hcons⟩ := List.exists_cons_of_ne_nil hstart
    have hfirst : first ∈ walked chain i := by rw [← hids, hcons]; exact List.mem_cons_self
    have hchain : first ∈ chain := List.mem_of_mem_drop (List.mem_of_mem_take hfirst)
    obtain ⟨link, hlink⟩ := h.present first hchain
    have hmem : (first, link) ∈ hydrate db.studies (walked chain i) :=
      mem_hydrate.mpr ⟨hlink, hfirst⟩
    simp [hlinks] at hmem
  | cons anchor rest =>
    have hsome : (studyOf db.studies studyId).isNone = false := by simp [hrow]
    refine ⟨anchor, rest, ?_⟩
    simp only [getChainForStudy, hsome, hids, hlinks]
    exact ⟨_, trivial, rfl, rfl, rfl⟩

/-- A study without a parent and without children. -/
theorem linearChain_single {root : StudyRow} (hroot : root.2.parentStudyId = none) :
    LinearChain [root] [root.1] where
  keys := by simp
  nodup := by simp
  present := by
    intro studyId hmem
    rw [List.mem_singleton.mp hmem]
    exact ⟨root.2, by simp⟩
  root := by
    intro studyId hzero
    obtain rfl : root.1 = studyId := by simpa using hzero
    simp [parentOf, studyOf, hroot]
  linked := by
    intro i parent child _ hchild
    simp at hchild
  onlyChild := by
    intro row hrow i parent _ hparent
    rw [List.mem_singleton.mp hrow, hroot] at hparent
    cases hparent

/-- A new row does not change what the other rows say. -/
theorem parentOf_append (hmem : studyId ∈ studies.map Prod.fst) :
    parentOf (studies ++ [row]) studyId = parentOf studies studyId := by
  obtain ⟨found, hfound, hid⟩ := List.mem_map.mp hmem
  have hsome : (studies.find? fun row => row.1 == studyId).isSome := by
    rw [List.find?_isSome]
    exact ⟨found, hfound, by simp [hid]⟩
  rw [parentOf, parentOf, studyOf, studyOf, List.find?_append, Option.or_of_isSome hsome]

/-- A chain grows by a child of its last study. -/
theorem LinearChain.snoc {last : ℕ} (h : LinearChain studies chain)
    (hlast : chain.getLast? = some last) (hfresh : row.1 ∉ studies.map Prod.fst)
    (hchildless : ∀ other ∈ studies, other.2.parentStudyId ≠ some row.1)
    (hparent : row.2.parentStudyId = some last) :
    LinearChain (studies ++ [row]) (chain ++ [row.1]) := by
  have hknown : ∀ studyId ∈ chain, studyId ∈ studies.map Prod.fst := by
    intro studyId hmem
    obtain ⟨study, hrow⟩ := h.present studyId hmem
    exact List.mem_map.mpr ⟨_, hrow, rfl⟩
  have hnew : row.1 ∉ chain := fun hmem => hfresh (hknown _ hmem)
  have hlastAt : chain[chain.length - 1]? = some last := by rwa [← List.getLast?_eq_getElem?]
  have hpos : 0 < chain.length := List.length_pos_of_mem (List.mem_of_getLast? hlast)
  have hne : last ≠ row.1 := fun heq => hnew (heq ▸ List.mem_of_getLast? hlast)
  have hfound : parentOf (studies ++ [row]) row.1 = some last := by
    have hnone : studies.find? (fun other => other.1 == row.1) = none := by
      rw [List.find?_eq_none]
      intro other hother heq
      exact hfresh (List.mem_map.mpr ⟨other, hother, by simpa using heq⟩)
    simp [parentOf, studyOf, hnone, hparent]
  refine ⟨?_, ?_, ?_, ?_, ?_, ?_⟩
  · rw [List.map_append, List.nodup_append]
    refine ⟨h.keys, by simp, fun id hid other hother => ?_⟩
    rw [List.mem_singleton.mp hother]
    exact fun heq => hfresh (heq ▸ hid)
  · rw [List.nodup_append]
    refine ⟨h.nodup, by simp, fun id hid other hother => ?_⟩
    rw [List.mem_singleton.mp hother]
    exact fun heq => hnew (heq ▸ hid)
  · intro studyId hmem
    rcases List.mem_append.mp hmem with hold | hsame
    · obtain ⟨study, hrow⟩ := h.present studyId hold
      exact ⟨study, List.mem_append_left _ hrow⟩
    · rw [List.mem_singleton.mp hsame]
      exact ⟨row.2, by simp⟩
  · intro studyId hzero
    rw [List.getElem?_append_left hpos] at hzero
    rw [parentOf_append (hknown _ (List.mem_of_getElem? hzero))]
    exact h.root studyId hzero
  · intro i parent child hi hchild
    by_cases hin : i + 1 < chain.length
    · rw [List.getElem?_append_left (by omega)] at hi
      rw [List.getElem?_append_left hin] at hchild
      rw [parentOf_append (hknown _ (List.mem_of_getElem? hchild))]
      exact h.linked i parent child hi hchild
    · have hlt : i + 1 < (chain ++ [row.1]).length := (List.getElem?_eq_some_iff.mp hchild).1
      rw [List.length_append, List.length_singleton] at hlt
      obtain rfl : i = chain.length - 1 := by omega
      rw [List.getElem?_append_left (by omega), hlastAt, Option.some.injEq] at hi
      rw [List.getElem?_append_right (by omega)] at hchild
      have hsame : row.1 = child := by simpa [Nat.sub_add_cancel hpos] using hchild
      rw [← hsame, ← hi]
      exact hfound
  · intro other hother i parent hi hotherParent
    rcases List.mem_append.mp hother with hold | hnewRow
    · by_cases hin : i < chain.length
      · rw [List.getElem?_append_left hin] at hi
        have hnext := h.onlyChild other hold i parent hi hotherParent
        have hlt : i + 1 < chain.length := (List.getElem?_eq_some_iff.mp hnext).1
        rw [List.getElem?_append_left hlt]
        exact hnext
      · rw [List.getElem?_append_right (by omega)] at hi
        have hself : parent = row.1 := by
          have hmem := List.mem_of_getElem? hi
          simpa using hmem
        exact absurd (hself ▸ hotherParent) (hchildless other hold)
    · obtain rfl := List.mem_singleton.mp hnewRow
      rw [hparent, Option.some.injEq] at hotherParent
      have hin : i < chain.length := by
        by_contra hout
        rw [List.getElem?_append_right (by omega)] at hi
        have hmem := List.mem_of_getElem? hi
        rw [List.mem_singleton] at hmem
        exact hne (hotherParent.trans hmem)
      rw [List.getElem?_append_left hin, ← hotherParent, ← hlastAt] at hi
      have hsame : i = chain.length - 1 := (List.getElem?_inj hin h.nodup).mp hi
      rw [List.getElem?_append_right (by omega)]
      simp [hsame, Nat.sub_add_cancel hpos]

/-- A chain of at most six studies is returned whole. -/
theorem walked_eq_self (hlength : chain.length ≤ chainMaxDescendants + 1)
    (hi : i < chain.length) : walked chain i = chain := by
  have hroot : i - chainUpwardHopCap = 0 := by
    unfold chainMaxDescendants at hlength
    unfold chainUpwardHopCap
    omega
  rw [walked, hroot, List.drop_zero, List.take_of_length_le hlength]

end RelyLoop.Chains
