import ActionAtlas.Proofs.ActionTree

/-!
# What a path selects

The walk of a query comes to the entries whose segments start with those of the path, or else to one
id behind the path of its file. The answer never has an id that is not in the tree, and the selection
for a path says of every id of the tree, and of no other, whether it is wanted.
-/

namespace ActionAtlas

/-- A selection that speaks about the ids of one side only, and wants some of them. -/
structure Selection.Marks (selection : Selection) (side wanted : List String) : Prop where
  lookup : ∀ id, selection.lookup id = if id ∈ side then some (wanted.contains id) else none
  wanted_subset : wanted ⊆ side

namespace ActionTree

/-! ## Answers and selections -/

theorem ids_child_subset {tree branch : ActionTree} {segment : String}
    (h : tree.child? segment = some branch) : branch.ids ⊆ tree.ids := by
  have hmem := mem_children_of_child? h
  obtain ⟨actions, children⟩ := tree
  intro id hid
  rw [ids_eq_filings] at hid ⊢
  obtain ⟨filing, hfiling, rfl⟩ := List.mem_map.mp hid
  refine List.mem_map.mpr ⟨filing.under segment, ?_, rfl⟩
  rw [filings]
  exact List.mem_append_right _ (mem_filingsOfChildren.mpr ⟨_, hmem, filing, hfiling, rfl⟩)

theorem idsBelow_subset {segments : List String} {tree : ActionTree} {shown : List String}
    (h : idsBelow segments tree = some shown) : shown ⊆ tree.ids := by
  fun_induction idsBelow segments tree with
  | case1 tree =>
      cases h
      exact List.Subset.refl _
  | case2 segment rest tree branch hchild ih =>
      exact List.Subset.trans (ih h) (ids_child_subset hchild)
  | case3 segment rest tree hchild hlast =>
      cases h
      obtain ⟨actions, children⟩ := tree
      have hmem : segment ∈ actions := List.contains_iff_mem.mp (Bool.and_eq_true_iff.mp hlast).2
      rw [ids]
      exact List.cons_subset.mpr ⟨List.mem_append_left _ hmem, List.nil_subset _⟩
  | case4 => cases h

theorem idsUnder?_subset {tree : ActionTree} {path : String} {shown : List String}
    (h : tree.idsUnder? path = some shown) : shown ⊆ tree.ids :=
  idsBelow_subset h

theorem selectionFor?_eq_some {tree : ActionTree} {path : String} {shown : List String}
    (h : tree.idsUnder? path = some shown) :
    tree.selectionFor? path = some (tree.ids.map fun id => (id, shown.contains id)) := by
  rw [selectionFor?, h, Option.map_some]

theorem selectionFor?_marks {tree : ActionTree} {path : String} {shown : List String}
    {selection : Selection} (hshown : tree.idsUnder? path = some shown)
    (hselection : tree.selectionFor? path = some selection) : selection.Marks tree.ids shown := by
  refine ⟨?_, idsUnder?_subset hshown⟩
  intro id
  rw [selectionFor?_eq_some hshown, Option.some.injEq] at hselection
  subst hselection
  exact lookup_map_self (shown.contains ·) tree.ids id

/-- A map in which no id of a side is wanted at first, and then some are. -/
def markedMap (side wanted : List String) : Std.HashMap String Bool :=
  wanted.foldl (fun map id => map.insert id true)
    (side.foldl (fun map id => map.insert id false) ∅)

theorem lookup_eq_markedMap {selection : Selection} {side wanted : List String}
    (marks : selection.Marks side wanted) (id : String) :
    selection.lookup id = (markedMap side wanted)[id]? := by
  rw [marks.lookup, markedMap, getElem?_foldl_insert_same, getElem?_foldl_insert_same,
    Std.HashMap.getElem?_empty]
  by_cases hwanted : id ∈ wanted
  · have hside : id ∈ side := marks.wanted_subset hwanted
    simp [hwanted, hside]
  · simp [hwanted]

/-- The selection for a path says of every id what a map says in which all ids of the tree are entered
as unwanted and then those below the path as wanted. -/
theorem selectionFor?_eq_markedMap (tree : ActionTree) (path : String) :
    (tree.selectionFor? path).map (fun selection id => selection.lookup id) =
      (tree.idsUnder? path).map fun shown id => (markedMap tree.ids shown)[id]? := by
  cases hshown : tree.idsUnder? path with
  | none => simp [selectionFor?, hshown]
  | some shown =>
      have hselection := selectionFor?_eq_some hshown
      rw [hselection, Option.map_some, Option.map_some]
      congr 1
      funext id
      exact lookup_eq_markedMap (selectionFor?_marks hshown hselection) id

/-! ## The walk -/

theorem filings_under_child {tree branch : ActionTree} (tidy : tree.Tidy) {segment : String}
    (rest : List String) (h : tree.child? segment = some branch) :
    tree.filings.filter (fun filing => segment :: rest <+: filing.segments) =
      (branch.filings.filter (fun filing => rest <+: filing.segments)).map (Filing.under segment) := by
  have hhead : ∀ filing : Filing, decide (segment :: rest <+: filing.segments) =
      (decide (segment :: rest <+: filing.segments) && filing.segments.head? == some segment) := by
    intro filing
    rw [Bool.eq_iff_iff, Bool.and_eq_true, decide_eq_true_iff]
    refine ⟨fun hunder => ⟨hunder, ?_⟩, And.left⟩
    obtain ⟨tail, htail⟩ := hunder
    simp [← htail]
  rw [List.filter_congr fun filing _ => hhead filing, ← List.filter_filter, filings_head tidy, h,
    Option.elim_some, List.filter_map]
  simp [Function.comp_def, Filing.under, List.cons_prefix_cons]

theorem idsBelow_of_filed {segments : List String} {tree : ActionTree} (tidy : tree.Tidy)
    (h : ∃ filing ∈ tree.filings, segments <+: filing.segments) :
    idsBelow segments tree =
      some ((tree.filings.filter (fun filing => segments <+: filing.segments)).map (·.id)) := by
  induction segments generalizing tree with
  | nil => simp [idsBelow, ids_eq_filings]
  | cons segment rest ih =>
      obtain ⟨⟨_, id⟩, hfiling, tail, rfl⟩ := h
      obtain ⟨branch, hchild, hbelow⟩ := exists_below_of_head tidy hfiling
      have hbranch := ih (tidy.child hchild).1 ⟨_, hbelow, tail, rfl⟩
      rw [idsBelow, hchild, filings_under_child tidy rest hchild, List.map_map]
      exact hbranch

theorem idsBelow_of_not_filed {front : List String} {last : String} {tree : ActionTree}
    (tidy : tree.Tidy) (h : ∀ filing ∈ tree.filings, ¬ front ++ [last] <+: filing.segments) :
    idsBelow (front ++ [last]) tree = if ⟨front, last⟩ ∈ tree.filings then some [last] else none := by
  induction front generalizing tree with
  | nil =>
      cases hchild : tree.child? last with
      | none => simp [idsBelow, hchild, nil_mem_filings]
      | some branch =>
          -- branches are not empty, so there is something under the path after all
          obtain ⟨below, hbelow⟩ := List.exists_mem_of_ne_nil _ (tidy.child hchild).2
          have hfiling := (mem_filings_of_child tidy hchild).mpr hbelow
          exact absurd ⟨below.1, rfl⟩ (h _ hfiling)
  | cons segment front ih =>
      rw [List.cons_append] at h ⊢
      cases hchild : tree.child? segment with
      | none =>
          have hmissing : ⟨segment :: front, last⟩ ∉ tree.filings := by
            intro hfiling
            obtain ⟨branch, hbranch, _⟩ := exists_below_of_head tidy hfiling
            rw [hchild] at hbranch
            cases hbranch
          simp [idsBelow, hchild, hmissing]
      | some branch =>
          have hbranch : ∀ filing ∈ branch.filings, ¬ front ++ [last] <+: filing.segments := by
            intro filing hfiling hunder
            have hfiled := (mem_filings_of_child tidy hchild).mpr hfiling
            exact h (filing.under segment) hfiled (List.cons_prefix_cons.mpr ⟨rfl, hunder⟩)
          simp only [idsBelow, hchild, ih (tidy.child hchild).1 hbranch,
            mem_filings_of_child tidy hchild]

section Held

variable {tree : ActionTree} {nodes ordered : List Node} (holds : tree.Holds nodes ordered)

include holds

theorem Holds.mem_filings {filing : Filing} :
    filing ∈ tree.filings ↔ ∃ node ∈ nodes, node.filing = filing := by
  rw [holds.filings, List.mem_map]
  simp only [holds.perm.mem_iff]

theorem Holds.idsBelow_of_under {segments : List String}
    (h : ∃ node ∈ nodes, segments <+: pathSegments node.filePath) :
    idsBelow segments tree = some ((ordered.filter fun node =>
      segments <+: pathSegments node.filePath).map (·.id)) := by
  obtain ⟨node, hnode, hunder⟩ := h
  have hfiled : ∃ filing ∈ tree.filings, segments <+: filing.segments :=
    ⟨node.filing, holds.mem_filings.mpr ⟨node, hnode, rfl⟩, hunder⟩
  rw [idsBelow_of_filed holds.tidy hfiled, holds.filings, List.filter_map, List.map_map]
  rfl

theorem Holds.idsBelow_of_not_under {segments : List String} (hsegments : segments ≠ [])
    (h : ∀ node ∈ nodes, ¬ segments <+: pathSegments node.filePath) :
    (∀ node ∈ nodes, pathSegments node.filePath ++ [node.id] = segments →
      idsBelow segments tree = some [node.id]) ∧
    ((∀ node ∈ nodes, pathSegments node.filePath ++ [node.id] ≠ segments) →
      idsBelow segments tree = none) := by
  obtain ⟨front, last, rfl⟩ := (List.eq_nil_or_concat' segments).resolve_left hsegments
  have hnone : ∀ filing ∈ tree.filings, ¬ front ++ [last] <+: filing.segments := by
    intro filing hfiling
    obtain ⟨node, hnode, rfl⟩ := holds.mem_filings.mp hfiling
    exact h node hnode
  have hwalk := idsBelow_of_not_filed holds.tidy hnone
  constructor
  · intro node hnode hexact
    obtain ⟨hfront, hlast⟩ := List.append_inj' hexact rfl
    have hlast : node.id = last := by simpa using hlast
    subst hfront hlast
    rw [hwalk]
    exact if_pos (holds.mem_filings.mpr ⟨node, hnode, rfl⟩)
  · intro hother
    rw [hwalk, if_neg]
    intro hfiling
    obtain ⟨node, hnode, hsame⟩ := holds.mem_filings.mp hfiling
    obtain ⟨hfront, hlast⟩ := Filing.mk.inj hsame
    exact hother node hnode (by rw [hfront, hlast])

/-- Where an id in an answer comes from. -/
theorem Holds.answer_cases {segments shown : List String} {id : String} (hsegments : segments ≠ [])
    (hanswer : idsBelow segments tree = some shown) (hid : id ∈ shown) :
    (∃ node ∈ nodes, segments <+: pathSegments node.filePath ∧ node.id = id) ∨
    ((∀ node ∈ nodes, ¬ segments <+: pathSegments node.filePath) ∧
      ∃ node ∈ nodes, pathSegments node.filePath ++ [node.id] = segments ∧ node.id = id) := by
  by_cases hunder : ∃ node ∈ nodes, segments <+: pathSegments node.filePath
  · have hshown := holds.idsBelow_of_under hunder
    rw [hanswer, Option.some.injEq] at hshown
    rw [hshown] at hid
    obtain ⟨node, hnode, rfl⟩ := List.mem_map.mp hid
    obtain ⟨hordered, hnodeUnder⟩ := List.mem_filter.mp hnode
    exact Or.inl ⟨node, holds.perm.mem_iff.mp hordered, of_decide_eq_true hnodeUnder, rfl⟩
  · have hfree : ∀ node ∈ nodes, ¬ segments <+: pathSegments node.filePath :=
      fun node hnode h => hunder ⟨node, hnode, h⟩
    obtain ⟨hexact, hunknown⟩ := holds.idsBelow_of_not_under hsegments hfree
    refine Or.inr ⟨hfree, ?_⟩
    by_contra hmissing
    have hnone : idsBelow segments tree = none := by
      refine hunknown fun node hnode hends => hmissing ⟨node, hnode, hends, ?_⟩
      have hshown := hexact node hnode hends
      rw [hanswer, Option.some.injEq] at hshown
      rw [hshown] at hid
      exact (List.mem_singleton.mp hid).symm
    rw [hanswer] at hnone
    cases hnone

end Held

/-- The tree of a store answers as a list of the live actions would. Its ids are theirs, in an order
that keeps the actions of one file as they came. A path that leads to a file or above gives the ids of
all actions below it; one that ends in the id of an action, behind its file, gives that id; any other
is unknown. The selection for a known path speaks about the ids of the tree and wants those that the
path gives. -/
theorem ofStore_answers (store : Store) :
    let actions := store.nodes.filter (·.kind == .action)
    let tree := ofStore store
    ∃ ordered : List Node,
      tree.ids = ordered.map (·.id) ∧ ordered.Perm actions ∧
      (∀ file, ordered.filter (·.filePath == file) = actions.filter (·.filePath == file)) ∧
      ∀ path,
        let segments := pathSegments (trimSlash path)
        ((∃ node ∈ actions, segments <+: pathSegments node.filePath) →
          tree.idsUnder? path = some ((ordered.filter fun node =>
            segments <+: pathSegments node.filePath).map (·.id))) ∧
        ((∀ node ∈ actions, ¬ segments <+: pathSegments node.filePath) →
          (∀ node ∈ actions, pathSegments node.filePath ++ [node.id] = segments →
            tree.idsUnder? path = some [node.id]) ∧
          ((∀ node ∈ actions, pathSegments node.filePath ++ [node.id] ≠ segments) →
            tree.idsUnder? path = none)) ∧
        (tree.selectionFor? path = none ↔ tree.idsUnder? path = none) ∧
        ∀ shown, tree.idsUnder? path = some shown →
          ∃ selection, tree.selectionFor? path = some selection ∧
            ∀ id, selection.lookup id =
              if id ∈ tree.ids then some (decide (id ∈ shown)) else none := by
  intro actions tree
  obtain ⟨ordered, holds⟩ := ofStore_holds store
  refine ⟨ordered, holds.ids_eq, holds.perm, holds.by_file, ?_⟩
  intro path segments
  refine ⟨holds.idsBelow_of_under,
    holds.idsBelow_of_not_under (pathSegments_ne_nil (trimSlash path)), Option.map_eq_none_iff, ?_⟩
  intro shown hshown
  have hselection := selectionFor?_eq_some hshown
  refine ⟨_, hselection, ?_⟩
  intro id
  have hlookup := (selectionFor?_marks hshown hselection).lookup id
  rwa [List.contains_eq_mem] at hlookup

end ActionTree
end ActionAtlas
