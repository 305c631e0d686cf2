import ActionAtlas.Graph.ActionTree
import ActionAtlas.Proofs.NamedEntries
import Mathlib.Data.List.Basic
import Mathlib.Data.List.Induction
import Mathlib.Data.List.Perm.Basic

/-!
# Filing actions

A tree of actions, read flat: every id with the segments that lead to it, in the order of the tree.
Filing an action puts one such entry behind all others of its file and leaves the rest alone. So the
tree of a store holds its live actions, each as often as it occurs, and those of one file in the order
in which they came. No two branches of such a tree share a name, and none is empty.
-/

namespace ActionAtlas

/-- An id with the segments that lead to it. -/
structure Filing where
  segments : List String
  id : String
  deriving DecidableEq

def Filing.under (segment : String) (filing : Filing) : Filing where
  segments := segment :: filing.segments
  id := filing.id

def Node.filing (node : Node) : Filing where
  segments := pathSegments node.filePath
  id := node.id

namespace ActionTree

mutual

/-- What is filed in a tree, in the order of the tree. -/
def filings : ActionTree → List Filing
  | .mk actions children => actions.map (Filing.mk []) ++ filingsOfChildren children

def filingsOfChildren : List (String × ActionTree) → List Filing
  | [] => []
  | (segment, child) :: rest => (filings child).map (Filing.under segment) ++ filingsOfChildren rest

end

/-- Branches have names of their own, and something is filed in each. -/
inductive Tidy : ActionTree → Prop where
  | mk {actions : List String} {children : List (String × ActionTree)}
      (names : (children.map (·.1)).Nodup)
      (branches : ∀ entry ∈ children, Tidy entry.2)
      (filled : ∀ entry ∈ children, entry.2.filings ≠ []) : Tidy (.mk actions children)

/-! ## Reading a tree flat -/

mutual

theorem ids_eq_filings (tree : ActionTree) : tree.ids = tree.filings.map (·.id) := by
  cases tree with
  | mk actions children =>
      simp [ids, filings, idsOfChildren_eq_filings children, Function.comp_def]

theorem idsOfChildren_eq_filings (children : List (String × ActionTree)) :
    idsOfChildren children = (filingsOfChildren children).map (·.id) := by
  match children with
  | [] => simp [idsOfChildren, filingsOfChildren]
  | (segment, child) :: rest =>
      simp [idsOfChildren, filingsOfChildren, ids_eq_filings child, idsOfChildren_eq_filings rest,
        Function.comp_def, Filing.under]

end

theorem filings_empty : empty.filings = [] := by
  simp [empty, filings, filingsOfChildren]

theorem mem_filingsOfChildren {children : List (String × ActionTree)} {filing : Filing} :
    filing ∈ filingsOfChildren children ↔
      ∃ entry ∈ children, ∃ below ∈ entry.2.filings, filing = below.under entry.1 := by
  induction children with
  | nil => simp [filingsOfChildren]
  | cons entry rest ih =>
      simp only [filingsOfChildren, List.mem_append, List.mem_map, ih, List.mem_cons, eq_comm]
      constructor
      · rintro (⟨below, hbelow, hfiling⟩ | ⟨other, hother, hbelow⟩)
        · exact ⟨entry, Or.inl rfl, below, hbelow, hfiling⟩
        · exact ⟨other, Or.inr hother, hbelow⟩
      · rintro ⟨other, rfl | hother, hbelow⟩
        · exact Or.inl hbelow
        · exact Or.inr ⟨other, hother, hbelow⟩

theorem nil_mem_filings {tree : ActionTree} {id : String} :
    ⟨[], id⟩ ∈ tree.filings ↔ id ∈ tree.actions := by
  cases tree with
  | mk actions children => simp [filings, ActionTree.actions, mem_filingsOfChildren, Filing.under]

theorem filingsOfChildren_head_eq_nil {children : List (String × ActionTree)} {segment : String}
    (h : segment ∉ children.map (·.1)) :
    (filingsOfChildren children).filter (·.segments.head? == some segment) = [] := by
  refine List.filter_eq_nil_iff.mpr ?_
  intro filing hfiling hhead
  obtain ⟨entry, hentry, below, _, rfl⟩ := mem_filingsOfChildren.mp hfiling
  have hname : entry.1 = segment := by simpa [Filing.under] using hhead
  exact h (List.mem_map.mpr ⟨entry, hentry, hname⟩)

theorem filingsOfChildren_head {children : List (String × ActionTree)}
    (hnames : (children.map (·.1)).Nodup) (segment : String) :
    (filingsOfChildren children).filter (·.segments.head? == some segment) =
      ((children.lookup segment).elim [] filings).map (Filing.under segment) := by
  induction children with
  | nil => simp [filingsOfChildren]
  | cons entry rest ih =>
      obtain ⟨name, child⟩ := entry
      rw [List.map_cons, List.nodup_cons] at hnames
      rw [filingsOfChildren, List.filter_append, List.filter_map]
      by_cases hname : name = segment
      · subst hname
        rw [filingsOfChildren_head_eq_nil hnames.1, List.lookup_cons_self]
        simp [Function.comp_def, Filing.under]
      · rw [lookup_cons_of_ne (Ne.symm hname), ih hnames.2]
        simp [Function.comp_def, Filing.under, hname]

/-- The entries that start with a segment are those of the branch with its name. -/
theorem filings_head {tree : ActionTree} (tidy : tree.Tidy) (segment : String) :
    tree.filings.filter (·.segments.head? == some segment) =
      ((tree.child? segment).elim [] filings).map (Filing.under segment) := by
  cases tidy with
  | mk names _ _ =>
      simp [filings, filingsOfChildren_head names, child?, ActionTree.children, List.filter_map,
        Function.comp_def]

theorem exists_below_of_head {tree : ActionTree} (tidy : tree.Tidy) {segment id : String}
    {rest : List String} (h : ⟨segment :: rest, id⟩ ∈ tree.filings) :
    ∃ branch, tree.child? segment = some branch ∧ ⟨rest, id⟩ ∈ branch.filings := by
  have hmem : ⟨segment :: rest, id⟩ ∈
      tree.filings.filter (·.segments.head? == some segment) :=
    List.mem_filter.mpr ⟨h, by simp⟩
  rw [filings_head tidy] at hmem
  obtain ⟨⟨other, _⟩, hbelow, hfiling⟩ := List.mem_map.mp hmem
  obtain ⟨rfl, rfl⟩ : other = rest ∧ _ = id := by simpa [Filing.under] using hfiling
  cases hchild : tree.child? segment with
  | none => simp [hchild] at hbelow
  | some branch => exact ⟨branch, rfl, by simpa [hchild] using hbelow⟩

theorem mem_filings_of_child {tree branch : ActionTree} (tidy : tree.Tidy) {segment id : String}
    {rest : List String} (h : tree.child? segment = some branch) :
    ⟨segment :: rest, id⟩ ∈ tree.filings ↔ ⟨rest, id⟩ ∈ branch.filings := by
  constructor
  · intro hfiling
    obtain ⟨other, hother, hbelow⟩ := exists_below_of_head tidy hfiling
    rw [h, Option.some.injEq] at hother
    exact hother ▸ hbelow
  · intro hbelow
    have hmem : ⟨segment :: rest, id⟩ ∈
        tree.filings.filter (·.segments.head? == some segment) := by
      rw [filings_head tidy, h]
      exact List.mem_map.mpr ⟨⟨rest, id⟩, hbelow, rfl⟩
    exact (List.mem_filter.mp hmem).1

/-! ## Filing -/

theorem mem_children_of_child? {tree branch : ActionTree} {segment : String}
    (h : tree.child? segment = some branch) : (segment, branch) ∈ tree.children := by
  obtain ⟨before, after, hchildren, _⟩ := List.lookup_eq_some_iff.mp h
  rw [hchildren]
  exact List.mem_append_right before List.mem_cons_self

theorem empty_tidy : empty.Tidy := .mk (by simp) (by simp) (by simp)

theorem Tidy.child {tree branch : ActionTree} (tidy : tree.Tidy) {segment : String}
    (h : tree.child? segment = some branch) : branch.Tidy ∧ branch.filings ≠ [] := by
  have hmem := mem_children_of_child? h
  cases tidy with
  | mk _ branches filled => exact ⟨branches _ hmem, filled _ hmem⟩

theorem Tidy.branch {tree : ActionTree} (tidy : tree.Tidy) (segment : String) :
    ((tree.child? segment).getD empty).Tidy := by
  cases hchild : tree.child? segment with
  | none => exact empty_tidy
  | some branch => exact (tidy.child hchild).1

theorem mem_setChild {segment : String} {branch : ActionTree} {entry : String × ActionTree}
    {children : List (String × ActionTree)} (h : entry ∈ setChild segment branch children) :
    entry = (segment, branch) ∨ entry ∈ children := by
  induction children with
  | nil => exact Or.inl (List.mem_singleton.mp h)
  | cons first rest ih =>
      obtain ⟨name, child⟩ := first
      unfold setChild at h
      split at h
      case isTrue hname =>
        rcases List.mem_cons.mp h with rfl | hrest
        · exact Or.inl (by rw [hname])
        · exact Or.inr (List.mem_cons_of_mem _ hrest)
      case isFalse =>
        rcases List.mem_cons.mp h with rfl | hrest
        · exact Or.inr List.mem_cons_self
        · exact (ih hrest).imp_right (List.mem_cons_of_mem _)

theorem setChild_names_nodup {segment : String} {branch : ActionTree}
    {children : List (String × ActionTree)} (h : (children.map (·.1)).Nodup) :
    ((setChild segment branch children).map (·.1)).Nodup := by
  induction children with
  | nil => simp [setChild]
  | cons first rest ih =>
      obtain ⟨name, child⟩ := first
      rw [List.map_cons, List.nodup_cons] at h
      unfold setChild
      split
      case isTrue => exact List.nodup_cons.mpr h
      case isFalse hname =>
        refine List.nodup_cons.mpr ⟨?_, ih h.2⟩
        intro hmem
        obtain ⟨entry, hentry, hentryName⟩ := List.mem_map.mp hmem
        rcases mem_setChild hentry with rfl | hold
        · exact hname hentryName.symm
        · exact h.1 (List.mem_map.mpr ⟨entry, hold, hentryName⟩)

/-- One more filing, behind all that share its segments. -/
def FiledInto (old new : List Filing) (added : Filing) : Prop :=
  ∃ before after, old = before ++ after ∧ new = before ++ added :: after ∧
    ∀ filing ∈ after, filing.segments ≠ added.segments

theorem filingsOfChildren_setChild {segment : String} {added : Filing} {branch : ActionTree}
    {children : List (String × ActionTree)} (hnames : (children.map (·.1)).Nodup)
    (h : FiledInto ((children.lookup segment).getD empty).filings branch.filings added) :
    FiledInto (filingsOfChildren children) (filingsOfChildren (setChild segment branch children))
      (added.under segment) := by
  induction children with
  | nil =>
      obtain ⟨before, after, hold, hnew, hafter⟩ := h
      rw [List.lookup_nil, Option.getD_none, filings_empty] at hold
      obtain ⟨rfl, rfl⟩ := List.append_eq_nil_iff.mp hold.symm
      exact ⟨[], [], rfl, by simp [setChild, filingsOfChildren, hnew], by simp⟩
  | cons entry more ih =>
      obtain ⟨name, child⟩ := entry
      rw [List.map_cons, List.nodup_cons] at hnames
      by_cases hname : name = segment
      · subst hname
        obtain ⟨before, after, hold, hnew, hafter⟩ := h
        rw [List.lookup_cons_self, Option.getD_some] at hold
        refine ⟨before.map (Filing.under name),
          after.map (Filing.under name) ++ filingsOfChildren more, ?_, ?_, ?_⟩
        · simp [filingsOfChildren, hold]
        · simp [setChild, filingsOfChildren, hnew]
        · intro filing hfiling
          rcases List.mem_append.mp hfiling with hfiling | hfiling
          · obtain ⟨inner, hinner, rfl⟩ := List.mem_map.mp hfiling
            exact fun hsegments => hafter inner hinner (List.cons.inj hsegments).2
          · obtain ⟨other, hother, inner, _, rfl⟩ := mem_filingsOfChildren.mp hfiling
            intro hsegments
            exact hnames.1 (List.mem_map.mpr ⟨other, hother, (List.cons.inj hsegments).1⟩)
      · rw [lookup_cons_of_ne (Ne.symm hname)] at h
        obtain ⟨before, after, hold, hnew, hafter⟩ := ih hnames.2 h
        refine ⟨child.filings.map (Filing.under name) ++ before, after, ?_, ?_, hafter⟩
        · simp [filingsOfChildren, hold]
        · simp [setChild, if_neg hname, filingsOfChildren, hnew]

theorem filings_insert (id : String) (segments : List String) {tree : ActionTree}
    (tidy : tree.Tidy) : FiledInto tree.filings (tree.insert id segments).filings ⟨segments, id⟩ := by
  induction segments generalizing tree with
  | nil =>
      obtain ⟨actions, children⟩ := tree
      refine ⟨actions.map (Filing.mk []), filingsOfChildren children, ?_, ?_, ?_⟩
      · simp [filings]
      · simp [filings, insert]
      · intro filing hfiling
        obtain ⟨entry, _, below, _, rfl⟩ := mem_filingsOfChildren.mp hfiling
        exact List.cons_ne_nil _ _
  | cons segment rest ih =>
      have hbranch := ih (tidy.branch segment)
      cases tidy with
      | @mk actions children names _ _ =>
          obtain ⟨before, after, hold, hnew, hafter⟩ := filingsOfChildren_setChild names hbranch
          refine ⟨actions.map (Filing.mk []) ++ before, after, ?_, ?_, hafter⟩
          · simp [filings, hold]
          · simp only [insert, filings, List.append_assoc]
            exact congrArg (_ ++ ·) hnew

theorem insert_tidy (id : String) (segments : List String) {tree : ActionTree} (tidy : tree.Tidy) :
    (tree.insert id segments).Tidy := by
  induction segments generalizing tree with
  | nil =>
      cases tidy with
      | mk names branches filled => exact .mk names branches filled
  | cons segment rest ih =>
      have hbranch := ih (tidy.branch segment)
      have hfilled : (((tree.child? segment).getD empty).insert id rest).filings ≠ [] := by
        obtain ⟨before, after, _, hnew, _⟩ := filings_insert id rest (tidy.branch segment)
        simp [hnew]
      cases tidy with
      | mk names branches filled =>
          refine .mk (setChild_names_nodup names) ?_ ?_
          · intro entry hentry
            rcases mem_setChild hentry with rfl | hold
            · exact hbranch
            · exact branches entry hold
          · intro entry hentry
            rcases mem_setChild hentry with rfl | hold
            · exact hfilled
            · exact filled entry hold

/-- A tree that holds some nodes: read flat, it lists them in an order that keeps those of one file
as they came. -/
structure Holds (tree : ActionTree) (nodes ordered : List Node) : Prop where
  tidy : tree.Tidy
  filings : tree.filings = ordered.map (·.filing)
  perm : ordered.Perm nodes
  by_file : ∀ path,
    ordered.filter (·.filePath == path) = nodes.filter (·.filePath == path)

theorem Holds.insert {tree : ActionTree} {nodes ordered : List Node} (holds : tree.Holds nodes ordered)
    (node : Node) :
    ∃ longer, (tree.insert node.id (pathSegments node.filePath)).Holds (nodes ++ [node]) longer := by
  obtain ⟨front, back, hold, hnew, hback⟩ :=
    filings_insert node.id (pathSegments node.filePath) holds.tidy
  rw [holds.filings] at hold
  obtain ⟨before, after, rfl, rfl, rfl⟩ := List.map_eq_append_iff.mp hold
  have hperm : (before ++ node :: after).Perm (nodes ++ [node]) :=
    List.perm_middle.trans ((holds.perm.cons node).trans (List.perm_append_singleton node nodes).symm)
  refine ⟨before ++ node :: after, insert_tidy _ _ holds.tidy, ?_, hperm, ?_⟩
  · rw [hnew, List.map_append, List.map_cons]
    rfl
  · intro path
    have hfile := holds.by_file path
    rw [List.filter_append] at hfile
    rw [List.filter_append, List.filter_append, List.filter_cons, ← hfile]
    by_cases hpath : node.filePath = path
    · -- nothing of the same file stands behind
      have hafter : after.filter (·.filePath == path) = [] := by
        refine List.filter_eq_nil_iff.mpr ?_
        intro other hother hsame
        refine hback other.filing (List.mem_map_of_mem hother) ?_
        rw [Node.filing, beq_iff_eq.mp hsame, hpath]
      simp [hpath, hafter]
    · simp [hpath]

theorem exists_holds (nodes : List Node) :
    ∃ ordered, (nodes.foldl (fun tree node => tree.insert node.id (pathSegments node.filePath))
      empty).Holds nodes ordered := by
  induction nodes using List.reverseRecOn with
  | nil => exact ⟨[], empty_tidy, by simp [filings_empty], .nil, fun _ => rfl⟩
  | append_singleton nodes node ih =>
      obtain ⟨ordered, holds⟩ := ih
      rw [List.foldl_append, List.foldl_cons, List.foldl_nil]
      exact holds.insert node

theorem ofStore_holds (store : Store) :
    ∃ ordered, (ofStore store).Holds (store.nodes.filter (·.kind == .action)) ordered :=
  exists_holds (store.nodes.filter (·.kind == .action))

theorem Holds.ids_eq {tree : ActionTree} {nodes ordered : List Node}
    (holds : tree.Holds nodes ordered) : tree.ids = ordered.map (·.id) := by
  rw [ids_eq_filings, holds.filings, List.map_map]
  rfl

theorem mem_ids_ofStore {store : Store} {id : String} :
    id ∈ (ofStore store).ids ↔ ∃ node ∈ store.nodes, node.kind = .action ∧ node.id = id := by
  obtain ⟨ordered, holds⟩ := ofStore_holds store
  rw [holds.ids_eq, (holds.perm.map (·.id)).mem_iff]
  simp [and_assoc]

end ActionTree
end ActionAtlas
