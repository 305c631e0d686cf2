import ActionAtlas.Proofs.GraphBuild
import Mathlib.Data.List.Forall2

/-!
# Entries in another order

Of the entries with one id, the first one makes the node, so the nodes depend on the order of the
entries. Which ids there are, which kind each of them has and which links there are does not: an id
fixes the kind, and a link is made from ids and a place alone.
-/

namespace ActionAtlas

/-- Another list of entries has every action under the same id and with all its references. -/
def ActionEntry.SaidBy (actions others : List ActionEntry) : Prop :=
  ∀ action ∈ actions, ∃ other ∈ others,
    other.id = action.id ∧ ∀ reference ∈ action.references, reference ∈ other.references

structure ActionEntry.Rearranged (action other : ActionEntry) : Prop where
  name : other.name = action.name
  filePath : other.filePath = action.filePath
  line : other.line = action.line
  references : other.references.Perm action.references

/-- In lists that go in step, every element has its partner. -/
theorem exists_partner {α β : Type} {related : α → β → Prop} {xs : List α} {ys : List β}
    (h : List.Forall₂ related xs ys) {x : α} (hx : x ∈ xs) : ∃ y ∈ ys, related x y := by
  induction h with
  | nil => simp at hx
  | cons hhead _ ih =>
      rcases List.mem_cons.mp hx with rfl | hrest
      · exact ⟨_, List.mem_cons_self, hhead⟩
      · obtain ⟨y, hy, hrelated⟩ := ih hrest
        exact ⟨y, List.mem_cons_of_mem _ hy, hrelated⟩

namespace ActionEntry

theorem Rearranged.id_eq {action other : ActionEntry} (h : action.Rearranged other) :
    other.id = action.id := by
  rw [ActionEntry.id, ActionEntry.id, h.name, h.filePath]

variable {actions matched others : List ActionEntry}

/-- Entries in another order, each with its references in another order, say the same. -/
theorem saidBy_of_rearranged (perm : matched.Perm actions)
    (rearranged : List.Forall₂ Rearranged matched others) :
    SaidBy actions others ∧ SaidBy others actions := by
  constructor
  · intro action haction
    obtain ⟨other, hother, h⟩ := exists_partner rearranged (perm.mem_iff.mpr haction)
    exact ⟨other, hother, h.id_eq, fun reference hreference => h.references.mem_iff.mpr hreference⟩
  · intro other hother
    obtain ⟨action, haction, h⟩ := exists_partner rearranged.flip hother
    exact ⟨action, perm.mem_iff.mp haction, h.id_eq.symm,
      fun reference hreference => h.references.mem_iff.mp hreference⟩

end ActionEntry

theorem ActionEntry.linkTo_congr {action other : ActionEntry} (h : action.id = other.id)
    (reference : ReferenceEntry) : action.linkTo reference = other.linkTo reference := by
  simp only [ActionEntry.linkTo, h]

namespace Graph

/-- The same ids, each of the same kind, and the same links. -/
structure Resembles (graph other : Graph) : Prop where
  ids : ∀ id, (∃ node ∈ graph.nodes, node.id = id) ↔ ∃ node ∈ other.nodes, node.id = id
  kinds : ∀ node ∈ graph.nodes, ∀ twin ∈ other.nodes, node.id = twin.id → node.kind = twin.kind
  links : ∀ link, link ∈ graph.links ↔ link ∈ other.links

variable {depth : Nat} {actions others : List ActionEntry}

theorem ofEntries_kind_eq {node twin : Node} (hnode : node ∈ (ofEntries depth actions).nodes)
    (htwin : twin ∈ (ofEntries depth others).nodes) (hid : node.id = twin.id) :
    node.kind = twin.kind := by
  rcases ofEntries_node_cases hnode with ⟨action, _, rfl⟩ | ⟨_, _, reference, _, rfl⟩
  · rcases ofEntries_node_cases htwin with ⟨other, _, rfl⟩ | ⟨_, _, other, _, rfl⟩
    · rfl
    · exact absurd hid (action.id_ne_id other)
  · exact (ofEntries_kind_of_reference htwin hid.symm).symm

theorem ids_of_saidBy (h : ActionEntry.SaidBy actions others) {id : String}
    (hid : ∃ node ∈ (ofEntries depth actions).nodes, node.id = id) :
    ∃ node ∈ (ofEntries depth others).nodes, node.id = id := by
  rw [exists_node_ofEntries_iff] at hid ⊢
  rcases hid with ⟨action, haction, hid⟩ | ⟨action, haction, reference, hreference, hid⟩
  · obtain ⟨other, hother, hsame, _⟩ := h action haction
    exact Or.inl ⟨other, hother, hsame.trans hid⟩
  · obtain ⟨other, hother, _, hkept⟩ := h action haction
    rw [ActionEntry.mem_relevant] at hreference
    exact Or.inr ⟨other, hother, reference,
      ActionEntry.mem_relevant.mpr ⟨hkept reference hreference.1, hreference.2⟩, hid⟩

theorem links_of_saidBy (h : ActionEntry.SaidBy actions others) {link : Link}
    (hlink : link ∈ (ofEntries depth actions).links) : link ∈ (ofEntries depth others).links := by
  rw [mem_links_ofEntries] at hlink ⊢
  obtain ⟨action, haction, reference, hreference, rfl⟩ := hlink
  obtain ⟨other, hother, hsame, hkept⟩ := h action haction
  rw [ActionEntry.mem_relevant] at hreference
  exact ⟨other, hother, reference,
    ActionEntry.mem_relevant.mpr ⟨hkept reference hreference.1, hreference.2⟩,
    ActionEntry.linkTo_congr hsame.symm reference⟩

/-- Lists of entries that say the same give graphs that differ only in the order and in which of the
places with one id stands for it. -/
theorem ofEntries_resembles (depth : Nat) (h : ActionEntry.SaidBy actions others)
    (hback : ActionEntry.SaidBy others actions) :
    (ofEntries depth actions).Resembles (ofEntries depth others) where
  ids _ := ⟨ids_of_saidBy h, ids_of_saidBy hback⟩
  kinds _ hnode _ htwin hid := ofEntries_kind_eq hnode htwin hid
  links _ := ⟨links_of_saidBy h, links_of_saidBy hback⟩

/-- Neither the order of the entries nor that of the references of an action matters for the ids,
for the kind of each id and for the links. -/
theorem ofEntries_rearranged (depth : Nat) {actions matched others : List ActionEntry}
    (perm : matched.Perm actions)
    (rearranged : List.Forall₂ ActionEntry.Rearranged matched others) :
    let before := ofEntries depth actions
    let after := ofEntries depth others
    (after.nodes.map (·.id)).Perm (before.nodes.map (·.id)) ∧
    (∀ node ∈ after.nodes, ∀ twin ∈ before.nodes, node.id = twin.id → node.kind = twin.kind) ∧
    after.links.Perm before.links := by
  intro before after
  obtain ⟨hsaid, hback⟩ := ActionEntry.saidBy_of_rearranged perm rearranged
  have hresembles : after.Resembles before := ofEntries_resembles depth hback hsaid
  refine ⟨?_, hresembles.kinds, ?_⟩
  · refine (List.perm_ext_iff_of_nodup (ofEntries_ids_nodup depth others)
      (ofEntries_ids_nodup depth actions)).mpr ?_
    intro id
    simpa only [List.mem_map] using hresembles.ids id
  · exact (List.perm_ext_iff_of_nodup (ofEntries_links_nodup depth others)
      (ofEntries_links_nodup depth actions)).mpr hresembles.links

/-- An effect that two actions share is drawn where it comes up first; its id and kind stay. -/
theorem ofEntries_rearranged_effect :
    let add : ActionEntry := ⟨"Add", "a::b.ts", 1,
      [⟨"r.ts", 4, [.reducer]⟩, ⟨"e.ts", 7, [.effect "on::add"]⟩]⟩
    let turned : ActionEntry := ⟨"Add", "a::b.ts", 1,
      [⟨"e.ts", 7, [.effect "on::add"]⟩, ⟨"r.ts", 4, [.reducer]⟩]⟩
    let drop : ActionEntry := ⟨"Drop", "c.ts", 2, [⟨"e.ts", 9, [.effect "on::add", .instantiate]⟩]⟩
    let before := ofEntries 1 [add, drop]
    let after := ofEntries 1 [drop, turned]
    [drop, add].Perm [add, drop] ∧ List.Forall₂ ActionEntry.Rearranged [drop, add] [drop, turned] ∧
    before.nodes.map (fun node => (node.id, node.line)) =
      [("Action::a::b.ts::Add", 1), ("Reducer::r.ts", 4), ("Effect::e.ts::on::add", 7),
        ("Action::c.ts::Drop", 2)] ∧
    after.nodes.map (fun node => (node.id, node.line)) =
      [("Action::c.ts::Drop", 2), ("Effect::e.ts::on::add", 9), ("Action::a::b.ts::Add", 1),
        ("Reducer::r.ts", 4)] ∧
    (after.nodes.map (·.id)).Perm (before.nodes.map (·.id)) ∧
    (∀ node ∈ after.nodes, ∀ twin ∈ before.nodes, node.id = twin.id → node.kind = twin.kind) ∧
    after.links.Perm before.links := by
  intro add turned drop before after
  have perm : [drop, add].Perm [add, drop] := .swap add drop []
  have rearranged : List.Forall₂ ActionEntry.Rearranged [drop, add] [drop, turned] :=
    .cons ⟨rfl, rfl, rfl, .refl _⟩ (.cons ⟨rfl, rfl, rfl, .swap _ _ []⟩ .nil)
  exact ⟨perm, rearranged, by decide +kernel, by decide +kernel,
    ofEntries_rearranged 1 perm rearranged⟩

end Graph
end ActionAtlas
