import ActionAtlas.Proofs.StoreView

/-!
# What a selection shows

In a store of a wired graph a selection acts as its rule says: a node is shown when it is wanted or
when it stands at a link without a blocked end, and the shown links are exactly those without a
blocked end. Flags are set by id, links are judged by ids and shown again by look-up; wiring makes
the three agree. So what is shown grows with the selection.
-/

namespace ActionAtlas

namespace Selection

/-- What is said about an id, from unwanted over nothing at all to wanted. -/
def rank : Option Bool → Nat
  | some false => 0
  | none => 1
  | some true => 2

/-- About no id does the second selection say less than the first. -/
def RaisedTo (lower upper : Selection) : Prop :=
  ∀ id, rank (lower.lookup id) ≤ rank (upper.lookup id)

variable {lower upper : Selection} {id : String}

theorem RaisedTo.wanted (raised : lower.RaisedTo upper) (h : lower.lookup id = some true) :
    upper.lookup id = some true := by
  have hrank := raised id
  rw [h] at hrank
  match hupper : upper.lookup id with
  | some true => rfl
  | some false => simp [hupper, rank] at hrank
  | none => simp [hupper, rank] at hrank

theorem RaisedTo.unwanted (raised : lower.RaisedTo upper) (h : upper.lookup id = some false) :
    lower.lookup id = some false := by
  have hrank := raised id
  rw [h] at hrank
  match hlower : lower.lookup id with
  | some false => rfl
  | some true => simp [hlower, rank] at hrank
  | none => simp [hlower, rank] at hrank

end Selection

def Graph.Unblocked (graph : Graph) (selection : Selection) (link : Link) : Prop :=
  ∀ node ∈ graph.nodes, link.touches node.id = true → Store.blocked selection node = false

instance (graph : Graph) (selection : Selection) : DecidablePred (graph.Unblocked selection) :=
  fun link => inferInstanceAs (Decidable (∀ node ∈ graph.nodes,
    link.touches node.id = true → Store.blocked selection node = false))

/-- A node is called for when it is wanted or stands at a link where nothing is blocked. -/
def Graph.Called (graph : Graph) (selection : Selection) (node : Node) : Prop :=
  (node.isSelectable = true ∧ selection.lookup node.id = some true) ∨
    ∃ link ∈ graph.links, link.touches node.id = true ∧ graph.Unblocked selection link

instance (graph : Graph) (selection : Selection) : DecidablePred (graph.Called selection) :=
  fun node => inferInstanceAs (Decidable (
    (node.isSelectable = true ∧ selection.lookup node.id = some true) ∨
    ∃ link ∈ graph.links, link.touches node.id = true ∧ graph.Unblocked selection link))

theorem Graph.Unblocked.mono {graph : Graph} {lower upper : Selection} {link : Link}
    (raised : lower.RaisedTo upper) (h : graph.Unblocked lower link) :
    graph.Unblocked upper link := by
  intro node hnode htouches
  have hlower := h node hnode htouches
  by_contra hblocked
  simp only [Store.blocked, Bool.not_eq_false, Bool.and_eq_true, beq_iff_eq] at hblocked
  simp [Store.blocked, hblocked.1, raised.unwanted hblocked.2] at hlower

theorem Graph.Called.mono {graph : Graph} {lower upper : Selection} {node : Node}
    (raised : lower.RaisedTo upper) (h : graph.Called lower node) : graph.Called upper node := by
  rcases h with ⟨hselectable, hwanted⟩ | ⟨link, hlink, htouches, hfree⟩
  · exact Or.inl ⟨hselectable, raised.wanted hwanted⟩
  · exact Or.inr ⟨link, hlink, htouches, hfree.mono raised⟩

namespace Store

variable {graph : Graph} {selection : Selection}

/-! ## Open links -/

theorem endOpen_ofGraph (wired : graph.Wired) {node : Node} (h : node ∈ graph.nodes) :
    (ofGraph graph).endOpen selection (.bare node.id) = !blocked selection node := by
  unfold endOpen
  rw [LinkEnd.id, lastLive?_ofGraph wired h, Option.any_some]

theorem linkOpen_ofGraph (wired : graph.Wired) {link : Link} {source target : Node}
    (hsource : source ∈ graph.nodes) (htarget : target ∈ graph.nodes)
    (hs : link.source = .bare source.id) (ht : link.target = .bare target.id) :
    (ofGraph graph).linkOpen selection link =
      (!blocked selection source && !blocked selection target) := by
  rw [linkOpen, hs, ht, endOpen_ofGraph wired hsource, endOpen_ofGraph wired htarget]

/-- No node at an open link is blocked. -/
theorem not_blocked_of_linkOpen (wired : graph.Wired) {link : Link} (hlink : link ∈ graph.links)
    (hopen : (ofGraph graph).linkOpen selection link = true) {node : Node}
    (hnode : node ∈ graph.nodes) (htouches : link.touches node.id = true) :
    blocked selection node = false := by
  obtain ⟨source, hsource, hs⟩ := wired.source_bare link hlink
  obtain ⟨target, htarget, ht⟩ := wired.target_bare link hlink
  rw [linkOpen_ofGraph wired hsource htarget hs ht] at hopen
  simp only [Bool.and_eq_true, Bool.not_eq_true'] at hopen
  rw [Link.touches, hs, ht] at htouches
  simp only [LinkEnd.id, Bool.or_eq_true, beq_iff_eq] at htouches
  rcases htouches with hid | hid
  · rw [← List.inj_on_of_nodup_map wired.ids_nodup hsource hnode hid]
    exact hopen.1
  · rw [← List.inj_on_of_nodup_map wired.ids_nodup htarget hnode hid]
    exact hopen.2

/-! ## Flags -/

theorem hiddenBy_eq_false_iff (wired : graph.Wired) {node : Node} (h : node ∈ graph.nodes) :
    (ofGraph graph).hiddenBy selection node.id = false ↔
      (node.isSelectable = true ∧ selection.lookup node.id = some true) ∨
      ∃ link ∈ graph.links, link.touches node.id = true ∧
        (ofGraph graph).linkOpen selection link = true := by
  unfold hiddenBy
  rw [lastLive?_ofGraph wired h, links_ofGraph]
  simp only [Option.any_some, Bool.and_eq_false_iff, Bool.not_eq_false', List.any_eq_true,
    Bool.and_eq_true, beq_iff_eq]
  constructor
  · rintro (⟨link, hlink, hopen, htouches⟩ | hwanted)
    · exact Or.inr ⟨link, hlink, htouches, hopen⟩
    · exact Or.inl hwanted
  · rintro (hwanted | ⟨link, hlink, htouches, hopen⟩)
    · exact Or.inr hwanted
    · exact Or.inl ⟨link, hlink, hopen, htouches⟩

theorem not_blocked_of_shown (wired : graph.Wired) {node : Node} (hnode : node ∈ graph.nodes)
    (hshown : (ofGraph graph).hiddenBy selection node.id = false) :
    blocked selection node = false := by
  rcases (hiddenBy_eq_false_iff wired hnode).mp hshown with ⟨_, hwanted⟩ | ⟨link, hlink, ht, hopen⟩
  · simp [blocked, hwanted]
  · exact not_blocked_of_linkOpen wired hlink hopen hnode ht

/-! ## What is shown -/

theorem visibleNodes_applySelection (store : Store) (selection : Selection) :
    (store.applySelection selection).visibleNodes =
      (store.nodes.filter fun node => !store.hiddenBy selection node.id).map
        fun node => { node with hidden := false } := by
  rw [visibleNodes, applySelection, nodes_mapNodes, List.filter_map]
  refine List.map_congr_left ?_
  intro node hnode
  have hshown := (List.mem_filter.mp hnode).2
  simp only [Function.comp_apply, Bool.not_eq_true'] at hshown
  rw [hshown]

theorem endHidden_applySelection (wired : graph.Wired) {node : Node} (h : node ∈ graph.nodes) :
    ((ofGraph graph).applySelection selection).endHidden (.bare node.id) =
      (ofGraph graph).hiddenBy selection node.id := by
  rw [applySelection, endHidden, node?_mapNodes_ofGraph, find?_reverse_id wired.ids_nodup h]
  rfl

/-- A link is shown exactly when it is open: its ends are then shown because of it, and a blocked
end is never shown. -/
theorem visibleLinks_applySelection (wired : graph.Wired) (selection : Selection) :
    ((ofGraph graph).applySelection selection).visibleLinks =
      graph.links.filter ((ofGraph graph).linkOpen selection) := by
  refine List.filter_congr ?_
  intro link hlink
  obtain ⟨source, hsource, hs⟩ := wired.source_bare link hlink
  obtain ⟨target, htarget, ht⟩ := wired.target_bare link hlink
  rw [hs, ht, endHidden_applySelection wired hsource, endHidden_applySelection wired htarget,
    Bool.eq_iff_iff]
  simp only [Bool.and_eq_true, Bool.not_eq_true']
  constructor
  · rintro ⟨hshownSource, hshownTarget⟩
    rw [linkOpen_ofGraph wired hsource htarget hs ht,
      not_blocked_of_shown wired hsource hshownSource,
      not_blocked_of_shown wired htarget hshownTarget]
    rfl
  · intro hopen
    constructor
    · exact (hiddenBy_eq_false_iff wired hsource).mpr
        (Or.inr ⟨link, hlink, by simp [Link.touches, hs, LinkEnd.id], hopen⟩)
    · exact (hiddenBy_eq_false_iff wired htarget).mpr
        (Or.inr ⟨link, hlink, by simp [Link.touches, ht, LinkEnd.id], hopen⟩)

theorem id_mem_visibleNodes {node : Node} (h : node ∈ graph.nodes)
    (hshown : (ofGraph graph).hiddenBy selection node.id = false) :
    node.id ∈ ((ofGraph graph).applySelection selection).visibleNodes.map (·.id) := by
  rw [visibleNodes_applySelection, nodes_ofGraph, List.map_map]
  exact List.mem_map.mpr ⟨node, List.mem_filter.mpr ⟨h, by rw [hshown]; rfl⟩, rfl⟩

theorem visibleLinks_closed (wired : graph.Wired) {link : Link}
    (h : link ∈ ((ofGraph graph).applySelection selection).visibleLinks) :
    link.source.id ∈ ((ofGraph graph).applySelection selection).visibleNodes.map (·.id) ∧
      link.target.id ∈ ((ofGraph graph).applySelection selection).visibleNodes.map (·.id) := by
  obtain ⟨hlink, hopen⟩ := List.mem_filter.mp (visibleLinks_applySelection wired selection ▸ h)
  obtain ⟨source, hsource, hs⟩ := wired.source_bare link hlink
  obtain ⟨target, htarget, ht⟩ := wired.target_bare link hlink
  rw [hs, ht]
  constructor
  · refine id_mem_visibleNodes hsource ((hiddenBy_eq_false_iff wired hsource).mpr (Or.inr ?_))
    exact ⟨link, hlink, by simp [Link.touches, hs, LinkEnd.id], hopen⟩
  · refine id_mem_visibleNodes htarget ((hiddenBy_eq_false_iff wired htarget).mpr (Or.inr ?_))
    exact ⟨link, hlink, by simp [Link.touches, ht, LinkEnd.id], hopen⟩

/-! ## More wanted, more shown -/

theorem linkOpen_eq_unblocked (wired : graph.Wired) {link : Link} (h : link ∈ graph.links) :
    (ofGraph graph).linkOpen selection link = decide (graph.Unblocked selection link) := by
  rw [Bool.eq_iff_iff, decide_eq_true_iff]
  constructor
  · intro hopen node hnode htouches
    exact not_blocked_of_linkOpen wired h hopen hnode htouches
  · intro hfree
    obtain ⟨source, hsource, hs⟩ := wired.source_bare link h
    obtain ⟨target, htarget, ht⟩ := wired.target_bare link h
    have hsourceFree := hfree source hsource (by simp [Link.touches, hs, LinkEnd.id])
    have htargetFree := hfree target htarget (by simp [Link.touches, ht, LinkEnd.id])
    rw [linkOpen_ofGraph wired hsource htarget hs ht, hsourceFree, htargetFree]
    rfl

theorem visibleNodes_eq_called (wired : graph.Wired) (selection : Selection) :
    ((ofGraph graph).applySelection selection).visibleNodes =
      (graph.nodes.filter (graph.Called selection ·)).map
        fun node => { node with hidden := false } := by
  rw [visibleNodes_applySelection, nodes_ofGraph]
  congr 1
  refine List.filter_congr ?_
  intro node hnode
  rw [Bool.eq_iff_iff, Bool.not_eq_true', decide_eq_true_iff, hiddenBy_eq_false_iff wired hnode]
  refine or_congr_right (exists_congr fun link => and_congr_right fun hlink => ?_)
  rw [linkOpen_eq_unblocked wired hlink, decide_eq_true_iff]

theorem visibleLinks_eq_unblocked (wired : graph.Wired) (selection : Selection) :
    ((ofGraph graph).applySelection selection).visibleLinks =
      graph.links.filter (graph.Unblocked selection ·) := by
  rw [visibleLinks_applySelection wired]
  exact List.filter_congr fun link hlink => linkOpen_eq_unblocked wired hlink

theorem exists_visible_ends (wired : graph.Wired) {link : Link}
    (h : link ∈ ((ofGraph graph).applySelection selection).visibleLinks) :
    ∃ source ∈ ((ofGraph graph).applySelection selection).visibleNodes,
      ∃ target ∈ ((ofGraph graph).applySelection selection).visibleNodes,
        link.source = .bare source.id ∧ link.target = .bare target.id := by
  obtain ⟨hsource, htarget⟩ := visibleLinks_closed wired h
  obtain ⟨source, hshownSource, hsourceId⟩ := List.mem_map.mp hsource
  obtain ⟨target, hshownTarget, htargetId⟩ := List.mem_map.mp htarget
  have hlink : link ∈ graph.links := (List.mem_filter.mp h).1
  obtain ⟨_, _, hs⟩ := wired.source_bare link hlink
  obtain ⟨_, _, ht⟩ := wired.target_bare link hlink
  refine ⟨source, hshownSource, target, hshownTarget, ?_, ?_⟩
  · rw [hsourceId, hs, LinkEnd.id]
  · rw [htargetId, ht, LinkEnd.id]

/-- What a selection shows of a wired graph: the nodes that are wanted or stand at a link where
nothing is blocked, and just those links, which end in nodes that are shown. Saying more about any id
never hides what was shown. -/
theorem applySelection_shows (graph : Graph) (selection : Selection) (wired : graph.Wired) :
    let shown := (ofGraph graph).applySelection selection
    shown.visibleNodes = (graph.nodes.filter fun node =>
        (node.isSelectable ∧ selection.lookup node.id = some true) ∨
        ∃ link ∈ graph.links, link.touches node.id ∧ graph.Unblocked selection link).map
      (fun node => { node with hidden := false }) ∧
    shown.visibleLinks = graph.links.filter (graph.Unblocked selection ·) ∧
    (∀ link ∈ shown.visibleLinks,
      ∃ source ∈ shown.visibleNodes, ∃ target ∈ shown.visibleNodes,
        link.source = .bare source.id ∧ link.target = .bare target.id) ∧
    ∀ upper, selection.RaisedTo upper →
      shown.visibleNodes.Sublist ((ofGraph graph).applySelection upper).visibleNodes ∧
      shown.visibleLinks.Sublist ((ofGraph graph).applySelection upper).visibleLinks := by
  intro shown
  refine ⟨visibleNodes_eq_called wired selection, visibleLinks_eq_unblocked wired selection,
    fun link hlink => exists_visible_ends wired hlink, ?_⟩
  intro upper raised
  have hcalled : ∀ node, graph.Called selection node → graph.Called upper node :=
    fun node => Graph.Called.mono raised
  have hfree : ∀ link, graph.Unblocked selection link → graph.Unblocked upper link :=
    fun link => Graph.Unblocked.mono raised
  constructor
  · rw [visibleNodes_eq_called wired, visibleNodes_eq_called wired]
    exact (List.monotone_filter_right _ (by simpa using hcalled)).map _
  · rw [visibleLinks_eq_unblocked wired, visibleLinks_eq_unblocked wired]
    exact List.monotone_filter_right _ (by simpa using hfree)

/-- An unwanted action takes its links with it. The method stays for the other action, which nothing
was said about, and the reducer because it is wanted; all come back once the action is not unwanted
any more. -/
theorem applySelection_shows_around_unwanted :
    let graph : Graph :=
      { nodes :=
          [⟨"a", "Add", .action, "a.ts", 1, none, false⟩,
            ⟨"b", "Drop", .action, "b.ts", 2, none, true⟩,
            ⟨"m", "save", .method, "m.ts", 3, none, true⟩,
            ⟨"r", "r.ts", .reducer, "r.ts", 4, none, false⟩,
            ⟨"u", "u", .unknown, "u.ts", 5, none, false⟩]
        links :=
          [⟨.bare "a", .bare "m", none, none, .disabled⟩,
            ⟨.bare "b", .bare "m", none, none, .disabled⟩,
            ⟨.bare "a", .bare "r", none, none, .disabled⟩] }
    let selection : Selection := [("a", false), ("r", true)]
    let shown := (ofGraph graph).applySelection selection
    graph.Wired ∧ shown.visibleNodes.map (·.id) = ["b", "m", "r"] ∧
    shown.visibleLinks = [⟨.bare "b", .bare "m", none, none, .disabled⟩] ∧
    selection.RaisedTo [("r", true)] ∧
    shown.visibleLinks.Sublist ((ofGraph graph).applySelection [("r", true)]).visibleLinks := by
  intro graph selection shown
  have wired : graph.Wired := ⟨by decide, by decide, by decide⟩
  have raised : selection.RaisedTo [("r", true)] := by
    intro id
    by_cases ha : id = "a"
    · subst ha
      decide
    · have hlookup : selection.lookup id = [("r", true)].lookup id := by
        rw [List.lookup_cons, beq_eq_false_iff_ne.mpr ha]
      exact Nat.le_of_eq (congrArg Selection.rank hlookup)
  obtain ⟨hnodes, hlinks, _, hgrows⟩ := applySelection_shows graph selection wired
  refine ⟨wired, ?_, ?_, raised, (hgrows _ raised).2⟩
  · rw [hnodes]
    decide
  · rw [hlinks]
    decide

end Store
end ActionAtlas
