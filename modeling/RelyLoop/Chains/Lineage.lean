import RelyLoop.Chains.Summary
import RelyLoop.Graphs.ParentMap

/-!
# Chains in a forest of studies

A study can be cloned more than once, and clones can be cloned, so the studies form a forest of
any width and depth. The walk of `get_chain_for_study` follows one line through it. This file
says which line that is.
-/

namespace RelyLoop.Chains

open Studies Graphs

/-- The studies as `POST /studies` and the follow-up worker create them: a study has no parent,
or one that was read before, whose row is then the older one. -/
inductive Built : List StudyRow → Prop
  | empty : Built []
  | create {studies : List StudyRow} {row : StudyRow} (h : Built studies)
      (hid : row.1 ∉ studies.map Prod.fst)
      (hparent : ∀ parentId, row.2.parentStudyId = some parentId →
        ∃ parent, (parentId, parent) ∈ studies ∧
          creationKey (parentId, parent) < creationKey row) :
      Built (studies ++ [row])

/-- Whether rows can be created one after the other. -/
def isBuiltFrom (studies : List StudyRow) : List StudyRow → Bool
  | [] => true
  | row :: rest =>
    row.1 ∉ studies.map Prod.fst &&
      (row.2.parentStudyId.all fun parentId => studies.any fun parent =>
        parent.1 = parentId && creationKey parent < creationKey row) &&
      isBuiltFrom (studies ++ [row]) rest

/-- Every parent is there and is older than its child. -/
structure Forest (studies : List StudyRow) : Prop where
  keys : (studies.map Prod.fst).Nodup
  older : ∀ row ∈ studies, ∀ parentId, row.2.parentStudyId = some parentId →
    ∃ parent, (parentId, parent) ∈ studies ∧ creationKey (parentId, parent) < creationKey row

/-- The child that the walk takes. -/
def oldestChild (studies : List StudyRow) (studyId : ℕ) : Option ℕ :=
  (childrenOf studies studyId).head?.map Prod.fst

/-- The place of a study in the order of creation. -/
def keyOf (studies : List StudyRow) (studyId : ℕ) : ℕ ×ₗ ℕ :=
  toLex (((studyOf studies studyId).map Study.createdAt).getD 0, studyId)

variable {studies : List StudyRow} {row : StudyRow} {studyId parentId child : ℕ} {study : Study}

theorem Built.append {rows : List StudyRow} (h : Built studies)
    (hrows : isBuiltFrom studies rows = true) : Built (studies ++ rows) := by
  induction rows generalizing studies with
  | nil => rwa [List.append_nil]
  | cons row rest ih =>
    simp only [isBuiltFrom, Bool.and_eq_true, decide_eq_true_eq] at hrows
    obtain ⟨⟨hid, hparent⟩, hrest⟩ := hrows
    have hstep : Built (studies ++ [row]) := by
      refine .create h hid fun parentId hsome => ?_
      simp only [hsome, Option.all_some, List.any_eq_true, Bool.and_eq_true,
        decide_eq_true_eq] at hparent
      obtain ⟨parent, hmem, rfl, hlt⟩ := hparent
      exact ⟨parent.2, hmem, hlt⟩
    simpa using ih hstep hrest

theorem built_of_isBuilt (h : isBuiltFrom [] studies = true) : Built studies :=
  Built.empty.append h

theorem Built.forest (h : Built studies) : Forest studies := by
  induction h with
  | empty => exact ⟨List.nodup_nil, by simp⟩
  | @create studies row _ hid hparent ih =>
    constructor
    · rw [List.map_append, List.nodup_append]
      refine ⟨ih.keys, by simp, fun id hmem other hother => ?_⟩
      rw [List.mem_singleton.mp hother]
      exact fun heq => hid (heq ▸ hmem)
    · intro other hother parentId hotherParent
      rcases List.mem_append.mp hother with hold | hnew
      · obtain ⟨parent, hmem, hlt⟩ := ih.older other hold parentId hotherParent
        exact ⟨parent, List.mem_append_left _ hmem, hlt⟩
      · obtain rfl := List.mem_singleton.mp hnew
        obtain ⟨parent, hmem, hlt⟩ := hparent parentId hotherParent
        exact ⟨parent, List.mem_append_left _ hmem, hlt⟩

namespace Forest

theorem studyOf_row (h : Forest studies) (hrow : row ∈ studies) :
    studyOf studies row.1 = some row.2 :=
  (studyOf_eq_some_iff h.keys).mpr hrow

theorem keyOf_eq (h : Forest studies) (hrow : row ∈ studies) :
    keyOf studies row.1 = creationKey row := by
  rw [keyOf, h.studyOf_row hrow]
  rfl

/-- What `parent_study_id` says of a study says a row of it. -/
theorem exists_row_of_parentOf (hparent : parentOf studies child = some parentId) :
    ∃ study, (child, study) ∈ studies ∧ study.parentStudyId = some parentId := by
  obtain ⟨study, hstudy, hparentId⟩ := Option.bind_eq_some_iff.mp hparent
  obtain ⟨row, hfind, rfl⟩ := Option.map_eq_some_iff.mp hstudy
  obtain rfl : row.1 = child := by simpa using List.find?_some hfind
  exact ⟨row.2, List.mem_of_find?_eq_some hfind, hparentId⟩

theorem exists_parent (h : Forest studies) (hparent : parentOf studies child = some parentId) :
    ∃ parent, (parentId, parent) ∈ studies ∧ keyOf studies parentId < keyOf studies child := by
  obtain ⟨study, hrow, hstudy⟩ := exists_row_of_parentOf hparent
  obtain ⟨parent, hmem, hlt⟩ := h.older _ hrow parentId hstudy
  refine ⟨parent, hmem, ?_⟩
  have hkey := h.keyOf_eq hmem
  have hkey' := h.keyOf_eq hrow
  dsimp only at hkey hkey'
  rwa [hkey, hkey']

theorem keyOf_lt (h : Forest studies) (hparent : parentOf studies child = some parentId) :
    keyOf studies parentId < keyOf studies child :=
  (h.exists_parent hparent).choose_spec.2

theorem parentOf_oldestChild (h : Forest studies)
    (hchild : oldestChild studies parentId = some child) :
    parentOf studies child = some parentId := by
  obtain ⟨row, hhead, rfl⟩ := Option.map_eq_some_iff.mp hchild
  obtain ⟨hrow, hparent⟩ := mem_childrenOf.mp (List.mem_of_mem_head? hhead)
  rw [parentOf, h.studyOf_row hrow, Option.bind_some, hparent]

/-- Going up, neither the visited studies nor a missing row stop the walk. -/
theorem upwardWalk_eq (h : Forest studies) (hops : ℕ) (visited : List ℕ) (cur : ℕ)
    (hvisited : ∀ v ∈ visited, keyOf studies cur ≤ keyOf studies v) :
    upwardWalk studies hops visited cur = climb (parentOf studies) hops cur := by
  induction hops generalizing visited cur with
  | zero => rfl
  | succ hops ih =>
    rw [upwardWalk, climb]
    cases hparent : parentOf studies cur with
    | none => rfl
    | some p =>
      obtain ⟨parent, hmem, hlt⟩ := h.exists_parent hparent
      have hfresh : p ∉ visited := fun hp => absurd (hvisited p hp) (not_le_of_gt hlt)
      have hfound : (studyOf studies p).isNone = false := by
        rw [(studyOf_eq_some_iff h.keys).mpr hmem]
        rfl
      simp only [if_neg hfresh, hfound, Bool.false_eq_true, if_false]
      refine ih (p :: visited) p fun v hv => ?_
      rcases List.mem_cons.mp hv with rfl | hv
      · exact le_rfl
      · exact hlt.le.trans (hvisited v hv)

/-- Going down, the visited studies do not stop the walk. -/
theorem downwardWalk_eq (h : Forest studies) (descendants : ℕ) (visited : List ℕ) (cur : ℕ)
    (hvisited : ∀ v ∈ visited, keyOf studies v ≤ keyOf studies cur) :
    downwardWalk studies descendants visited cur =
      descend (oldestChild studies) descendants cur := by
  induction descendants generalizing visited cur with
  | zero => rfl
  | succ descendants ih =>
    rw [downwardWalk, descend]
    cases hhead : (childrenOf studies cur).head? with
    | none => simp [oldestChild, hhead]
    | some next =>
      have hchild : oldestChild studies cur = some next.1 := by simp [oldestChild, hhead]
      have hlt := h.keyOf_lt (h.parentOf_oldestChild hchild)
      have hfresh : next.1 ∉ visited := fun hn => absurd (hvisited next.1 hn) (not_le_of_gt hlt)
      simp only [hchild, if_neg hfresh]
      refine congrArg _ (ih (next.1 :: visited) next.1 fun v hv => ?_)
      rcases List.mem_cons.mp hv with rfl | hv
      · exact le_rfl
      · exact (hvisited v hv).trans hlt.le

/-- The links are those of the line through the study. -/
theorem linkIds_eq (h : Forest studies) (studyId : ℕ) :
    linkIds studies studyId = line (parentOf studies) (oldestChild studies) chainUpwardHopCap
      chainMaxDescendants studyId := by
  have hup := h.upwardWalk_eq chainUpwardHopCap [studyId] studyId (by simp)
  rw [linkIds, line, hup]
  exact congrArg _ (h.downwardWalk_eq _ _ _ (by simp))

theorem linkIds_isChain (h : Forest studies) (studyId : ℕ) :
    (linkIds studies studyId).IsChain fun a b => oldestChild studies a = some b := by
  rw [h.linkIds_eq]
  exact isChain_descend _ _ _

theorem present_of_mem_linkIds (h : Forest studies) (hstudy : ∃ study, (studyId, study) ∈ studies)
    {id : ℕ} (hid : id ∈ linkIds studies studyId) : ∃ study, (id, study) ∈ studies := by
  rw [h.linkIds_eq] at hid
  rcases List.mem_cons.mp hid with rfl | hid
  · obtain ⟨k, _, hancestor, _⟩ :=
      exists_climb (parentOf studies) chainUpwardHopCap studyId
    cases k with
    | zero => exact Option.some.inj hancestor ▸ hstudy
    | succ k =>
      rw [ancestor_add, Option.bind_eq_some_iff] at hancestor
      obtain ⟨c, _, hparent⟩ := hancestor
      rw [ancestor_one] at hparent
      obtain ⟨parent, hmem, _⟩ := h.exists_parent hparent
      exact ⟨parent, hmem⟩
  · obtain ⟨k, _, hancestor, hall⟩ :=
      (mem_descend_iff fun _ _ => h.parentOf_oldestChild).mp hid
    rw [ancestor, Option.bind_eq_some_iff] at hancestor
    obtain ⟨p, hp, _⟩ := hancestor
    obtain ⟨study, hrow, _⟩ := exists_row_of_parentOf hp
    exact ⟨study, hrow⟩

/-- The rows of the links are loaded in the order of the walk. -/
theorem map_hydrate (h : Forest studies) (hstudy : ∃ study, (studyId, study) ∈ studies) :
    (hydrate studies (linkIds studies studyId)).map Prod.fst = linkIds studies studyId := by
  have hsorted : (linkIds studies studyId).Pairwise fun a b =>
      keyOf studies a < keyOf studies b := by
    have hchain : (linkIds studies studyId).IsChain fun a b =>
        keyOf studies a < keyOf studies b :=
      (h.linkIds_isChain studyId).imp fun a b hab => h.keyOf_lt (h.parentOf_oldestChild hab)
    have : Trans (fun a b => keyOf studies a < keyOf studies b)
        (fun a b => keyOf studies a < keyOf studies b)
        (fun a b => keyOf studies a < keyOf studies b) := ⟨lt_trans⟩
    exact List.isChain_iff_pairwise.mp hchain
  have hsorted' : ((hydrate studies (linkIds studies studyId)).map Prod.fst).Pairwise
      fun a b => keyOf studies a ≤ keyOf studies b := by
    refine List.pairwise_map.mpr (List.Pairwise.imp_of_mem ?_ (pairwise_byCreation _))
    intro a b ha hb hab
    rw [h.keyOf_eq (mem_hydrate.mp ha).1, h.keyOf_eq (mem_hydrate.mp hb).1]
    exact hab
  have hnodup : (hydrate studies (linkIds studies studyId)).Nodup := by
    refine (List.perm_insertionSort _ _).nodup_iff.mpr (List.Nodup.filter _ ?_)
    exact List.Nodup.of_map _ h.keys
  have hnodup' : ((hydrate studies (linkIds studies studyId)).map Prod.fst).Nodup :=
    List.Nodup.map_on (fun a ha b hb hab => List.inj_on_of_nodup_map h.keys
      (mem_hydrate.mp ha).1 (mem_hydrate.mp hb).1 hab) hnodup
  have hsorted'' := hsorted.imp fun hlt => hlt.le
  refine List.Perm.eq_of_pairwise ?_ hsorted' hsorted'' ?_
  · intro a b _ _ hab hba
    exact congrArg (fun key => (ofLex key).2) (le_antisymm hab hba)
  · refine (List.perm_ext_iff_of_nodup hnodup' ?_).mpr fun id => ?_
    · exact hsorted.imp fun hlt heq => absurd (heq ▸ hlt) (lt_irrefl _)
    · rw [List.mem_map]
      constructor
      · rintro ⟨row, hrow, rfl⟩
        exact (mem_hydrate.mp hrow).2
      · intro hid
        obtain ⟨study, hrow⟩ := h.present_of_mem_linkIds hstudy hid
        exact ⟨(id, study), mem_hydrate.mpr ⟨hrow, hid⟩, rfl⟩

/-- The traversal of a study has the links of its line, and begins where the walk up ends. -/
theorem exists_traversal {db : Tables} (h : Forest db.studies)
    (hstudy : ∃ study, (studyId, study) ∈ db.studies) :
    ∃ traversal, getChainForStudy db studyId = some traversal ∧
      traversal.links = hydrate db.studies (linkIds db.studies studyId) ∧
      traversal.anchorId = climb (parentOf db.studies) chainUpwardHopCap studyId := by
  obtain ⟨study, hrow⟩ := hstudy
  have hids := h.map_hydrate ⟨study, hrow⟩
  have hfound : (studyOf db.studies studyId).isNone = false := by
    rw [(studyOf_eq_some_iff h.keys).mpr hrow]
    rfl
  cases hlinks : hydrate db.studies (linkIds db.studies studyId) with
  | nil =>
    rw [hlinks, h.linkIds_eq] at hids
    cases hids
  | cons anchor rest =>
    have hanchor : anchor.1 = climb (parentOf db.studies) chainUpwardHopCap studyId := by
      rw [hlinks, h.linkIds_eq] at hids
      exact (List.cons.inj hids).1
    simp only [getChainForStudy, hfound, Bool.false_eq_true, if_false, hlinks]
    exact ⟨_, rfl, rfl, hanchor⟩

end Forest

/-! ## What the traversal returns -/

/-- The links that are returned for a study. -/
structure WalkedFrom (studies : List StudyRow) (studyId : ℕ) (traversal : ChainTraversalResult) :
    Prop where
  /-- The anchor is the root of the study's ancestry unless the root is more than ten hops up. -/
  anchor : ∃ hops ≤ 10, ancestor (parentOf studies) hops studyId = some traversal.anchorId ∧
    (parentOf studies traversal.anchorId = none ∨ hops = 10)
  head : traversal.links.head?.map Prod.fst = some traversal.anchorId
  path : traversal.links.IsChain fun a b =>
    b.2.parentStudyId = some a.1 ∧ oldestChild studies a.1 = some b.1
  atMostSix : traversal.links.length ≤ 6
  toTheEnd : traversal.links.length < 6 → ∀ last ∈ traversal.links.getLast?,
    oldestChild studies last.1 = none
  /-- A study is in its own chain when it has at most five ancestors, and it and they are the
  oldest children of their parents. -/
  contains : studyId ∈ traversal.links.map Prod.fst ↔
    ancestor (parentOf studies) 6 studyId = none ∧
      ∀ hops id, ancestor (parentOf studies) hops studyId = some id →
        Chosen (parentOf studies) (oldestChild studies) id

section

variable {db : Tables} {traversal : ChainTraversalResult} (h : Forest db.studies)
  (hstudy : ∃ study, (studyId, study) ∈ db.studies)
  (htraversal : getChainForStudy db studyId = some traversal)

include h hstudy htraversal

theorem Forest.anchorId_eq :
    traversal.anchorId = climb (parentOf db.studies) chainUpwardHopCap studyId := by
  obtain ⟨found, hfound, _, hanchor⟩ := h.exists_traversal hstudy
  rwa [← Option.some.inj (htraversal.symm.trans hfound)] at hanchor

theorem Forest.map_links : traversal.links.map Prod.fst = line (parentOf db.studies)
    (oldestChild db.studies) chainUpwardHopCap chainMaxDescendants studyId := by
  rw [(links_of_getChainForStudy htraversal).1, h.map_hydrate hstudy, h.linkIds_eq]

omit h hstudy in
theorem mem_of_mem_links {link : StudyRow} (hlink : link ∈ traversal.links) :
    link ∈ db.studies := by
  rw [(links_of_getChainForStudy htraversal).1] at hlink
  exact (mem_hydrate.mp hlink).1

theorem Forest.walkedFrom : WalkedFrom db.studies studyId traversal where
  anchor := by
    rw [h.anchorId_eq hstudy htraversal]
    exact exists_climb _ _ _
  head := by
    rw [← List.head?_map, h.map_links hstudy htraversal, h.anchorId_eq hstudy htraversal]
    rfl
  path := by
    have hchain := isChain_descend (oldestChild db.studies) chainMaxDescendants
      (climb (parentOf db.studies) chainUpwardHopCap studyId)
    rw [← line, ← h.map_links hstudy htraversal, List.isChain_map] at hchain
    refine hchain.imp_of_mem_imp fun a b _ hb hab => ⟨?_, hab⟩
    have hparent := h.parentOf_oldestChild hab
    rwa [parentOf, h.studyOf_row (mem_of_mem_links htraversal hb), Option.bind_some] at hparent
  atMostSix := by
    rw [← List.length_map (f := Prod.fst), h.map_links hstudy htraversal]
    exact Nat.succ_le_succ (length_descend_le _ _ _)
  toTheEnd := by
    intro hlength last hlast
    have hlast' : last.1 ∈ (traversal.links.map Prod.fst).getLast? := by
      rw [List.getLast?_map]
      exact Option.mem_map_of_mem Prod.fst hlast
    rw [← List.length_map (f := Prod.fst), h.map_links hstudy htraversal] at hlength
    rw [h.map_links hstudy htraversal] at hlast'
    exact child_of_length_descend_lt (Nat.lt_of_succ_lt_succ hlength) hlast'
  contains := by
    rw [h.map_links hstudy htraversal]
    exact mem_line_iff (fun _ _ => h.parentOf_oldestChild) (fun _ _ => h.keyOf_lt) (by decide)

/-- Where the anchor is the root, every link has this chain. -/
theorem Forest.getChainForStudy_link (hroot : parentOf db.studies traversal.anchorId = none)
    {link : StudyRow} (hlink : link ∈ traversal.links) :
    getChainForStudy db link.1 = some traversal := by
  have hids := h.map_links hstudy htraversal
  have hmem : link.1 ∈ line (parentOf db.studies) (oldestChild db.studies) chainUpwardHopCap
      chainMaxDescendants studyId := hids ▸ List.mem_map_of_mem hlink
  rw [h.anchorId_eq hstudy htraversal] at hroot
  have hsame : linkIds db.studies link.1 = linkIds db.studies studyId := by
    rw [h.linkIds_eq, h.linkIds_eq]
    exact line_eq_of_mem (fun _ _ => h.parentOf_oldestChild) (by decide) hroot hmem
  have hfound : ∀ {id}, (∃ study, (id, study) ∈ db.studies) →
      (studyOf db.studies id).isNone = false := by
    rintro id ⟨study, hrow⟩
    rw [(studyOf_eq_some_iff h.keys).mpr hrow]
    rfl
  rw [← htraversal, getChainForStudy, getChainForStudy, hsame,
    hfound ⟨link.2, mem_of_mem_links htraversal hlink⟩, hfound hstudy]

/-- Where the anchor has a parent, the anchor has another chain. -/
theorem Forest.exists_link_ne (hroot : parentOf db.studies traversal.anchorId ≠ none) :
    ∃ link ∈ traversal.links, getChainForStudy db link.1 ≠ some traversal := by
  have hanchor := h.anchorId_eq hstudy htraversal
  obtain ⟨first, hfirst, hid⟩ : ∃ link ∈ traversal.links, link.1 = traversal.anchorId := by
    have hmem : traversal.anchorId ∈ traversal.links.map Prod.fst := by
      rw [h.map_links hstudy htraversal, hanchor]
      exact List.mem_cons_self
    simpa using hmem
  refine ⟨first, hfirst, fun hsame => ?_⟩
  have hanchor' := h.anchorId_eq ⟨first.2, mem_of_mem_links htraversal hfirst⟩ hsame
  rw [hid] at hanchor'
  exact climb_ne_self (fun _ _ => h.keyOf_lt) (by decide) hroot hanchor'.symm

end

/-- The chain of a study is a path that begins at its anchor. All studies of it have the same
chain exactly when the study has at most ten ancestors. -/
theorem chain_of_study {db : Tables} (h : Built db.studies)
    (hstudy : ∃ study, (studyId, study) ∈ db.studies) :
    ∃ traversal, getChainForStudy db studyId = some traversal ∧
      WalkedFrom db.studies studyId traversal ∧
      ((∀ link ∈ traversal.links, getChainForStudy db link.1 = some traversal) ↔
        ancestor (parentOf db.studies) 11 studyId = none) := by
  obtain ⟨traversal, htraversal, -⟩ := h.forest.exists_traversal hstudy
  refine ⟨traversal, htraversal, h.forest.walkedFrom hstudy htraversal, ?_⟩
  have hroot : parentOf db.studies traversal.anchorId = none ↔
      ancestor (parentOf db.studies) 11 studyId = none := by
    rw [h.forest.anchorId_eq hstudy htraversal]
    exact parent_climb_eq_none_iff
  rw [← hroot]
  constructor
  · intro hsame
    by_contra hparent
    obtain ⟨link, hlink, hne⟩ := h.forest.exists_link_ne hstudy htraversal hparent
    exact hne (hsame link hlink)
  · exact fun hparent link => h.forest.getChainForStudy_link hstudy htraversal hparent

/-! ## Forks and long lines -/

/-- A study that is created at the time of its id. -/
def queuedStudy (studyId : ℕ) (parentStudyId : Option ℕ) : StudyRow :=
  (studyId,
    { objective := ⟨.ndcg, some .k10, .maximize⟩
      config := { maxTrials := some 1 }
      status := .queued
      parentStudyId := parentStudyId
      createdAt := studyId })

/-- A study with two clones. -/
def fork : List StudyRow := [queuedStudy 0 none, queuedStudy 1 (some 0), queuedStudy 2 (some 0)]

/-- Each study is a clone of the one before. -/
def cloneLine (n : ℕ) : List StudyRow :=
  (List.range n).map fun i => queuedStudy i (if i = 0 then none else some (i - 1))

theorem built_fork : Built fork := built_of_isBuilt (by decide)

theorem chain_of_study_fork : ∃ traversal, getChainForStudy { studies := fork } 1 =
    some traversal ∧ WalkedFrom fork 1 traversal := by
  have hbuilt : Built ({ studies := fork } : Tables).studies := built_fork
  have hstudy : ∃ study, (1, study) ∈ ({ studies := fork } : Tables).studies :=
    ⟨(queuedStudy 1 (some 0)).2, by decide⟩
  obtain ⟨traversal, htraversal, hwalked, -⟩ := chain_of_study hbuilt hstudy
  exact ⟨traversal, htraversal, hwalked⟩

/-- The second clone of a study is not in the chain that is returned for it, the seventh study
of a line is not in its chain, and the chain of the twelfth begins below the root, where another
chain is returned. -/
theorem chain_misses_its_study :
    (Built fork ∧ (getChainForStudy { studies := fork } 2).map
      (fun traversal => traversal.links.map Prod.fst) = some [0, 1]) ∧
    (Built (cloneLine 7) ∧ (getChainForStudy { studies := cloneLine 7 } 6).map
      (fun traversal => traversal.links.map Prod.fst) = some [0, 1, 2, 3, 4, 5]) ∧
    Built (cloneLine 12) ∧
      (getChainForStudy { studies := cloneLine 12 } 11).map ChainTraversalResult.anchorId =
        some 1 ∧
      (getChainForStudy { studies := cloneLine 12 } 1).map ChainTraversalResult.anchorId =
        some 0 :=
  ⟨⟨built_fork, by decide +kernel⟩,
    ⟨built_of_isBuilt (by decide +kernel), by decide +kernel⟩,
    built_of_isBuilt (by decide +kernel), by decide +kernel, by decide +kernel⟩

end RelyLoop.Chains
