import ActionAtlas.Proofs.NamedEntries
import ActionAtlas.Proofs.StoreView
import Mathlib.Data.List.Forall2
import Mathlib.Data.List.Induction

/-!
# Runs of edits

Edits change nodes, retire slots and replace links. None of them makes or drops a slot, gives a slot
another key, or brings back a retired one. So look-ups go by the ids that the nodes had when the store
was made, through any run of edits, and only a copy goes by the ids that they have now.
-/

namespace ActionAtlas

/-! ## What stays of a slot -/

namespace Slot

/-- What every edit keeps of a slot: its key, and that it is retired once it is. -/
structure Keeps (before after : Slot) : Prop where
  key : after.key = before.key
  retired : before.live = false → after.live = false

theorem Keeps.refl (slot : Slot) : slot.Keeps slot := ⟨rfl, id⟩

theorem Keeps.trans {before between after : Slot} (h : before.Keeps between)
    (h' : between.Keeps after) : before.Keeps after :=
  ⟨h'.key.trans h.key, fun hretired => h'.retired (h.retired hretired)⟩

theorem keeps_node (slot : Slot) (node : Node) : slot.Keeps { slot with node := node } := ⟨rfl, id⟩

theorem keeps_all (slots : List Slot) : List.Forall₂ Keeps slots slots :=
  List.forall₂_same.mpr fun slot _ => .refl slot

theorem keeps_all_trans {before between after : List Slot} (h : List.Forall₂ Keeps before between)
    (h' : List.Forall₂ Keeps between after) : List.Forall₂ Keeps before after := by
  induction h generalizing after with
  | nil => exact h'
  | cons hkeeps _ ih =>
      cases h' with
      | cons hkeeps' hrest => exact .cons (hkeeps.trans hkeeps') (ih hrest)

theorem keys_of_keeps {before after : List Slot} (h : List.Forall₂ Keeps before after) :
    after.map (·.key) = before.map (·.key) := by
  induction h with
  | nil => rfl
  | cons hkeeps _ ih => rw [List.map_cons, List.map_cons, hkeeps.key, ih]

theorem keeps_getElem? {before after : List Slot} (h : List.Forall₂ Keeps before after) {pos : Nat}
    {slot : Slot} (hslot : before[pos]? = some slot) :
    ∃ later, after[pos]? = some later ∧ slot.Keeps later := by
  induction h generalizing pos with
  | nil => cases hslot
  | @cons first later rest _ hkeeps _ ih =>
      cases pos with
      | zero =>
          cases hslot
          exact ⟨later, rfl, hkeeps⟩
      | succ pos => exact ih hslot

end Slot

/-- From the end of a list, the first element that passes a test is the one with none behind it. -/
theorem find?_reverse_eq_some_iff {α : Type} {test : α → Bool} {items : List α} {item : α} :
    items.reverse.find? test = some item ↔
      test item = true ∧ ∃ before after, items = before ++ item :: after ∧
        ∀ other ∈ after, test other = false := by
  rw [List.find?_eq_some_iff_append]
  refine and_congr_right fun _ => ?_
  constructor
  · rintro ⟨after, before, hsplit, hafter⟩
    refine ⟨before.reverse, after.reverse, by simpa using congrArg List.reverse hsplit, ?_⟩
    intro other hother
    simpa using hafter other (List.mem_reverse.mp hother)
  · rintro ⟨before, after, rfl, hafter⟩
    refine ⟨after.reverse, before.reverse, by simp, ?_⟩
    intro other hother
    simpa using hafter other (List.mem_reverse.mp hother)

namespace Store

/-! ## Edits -/

inductive Edit where
  | retain (keep : Node → Bool)
  | changeAll (change : Node → Node)
  | changeLive (position : Nat) (change : Node → Node)
  | changeFound (key : String) (change : Node → Node)
  | changeLinks (change : List Link → List Link)
  | select (selection : Selection)
  | showAll

def edit (store : Store) : Edit → Store
  | .retain keep => store.retainNodes keep
  | .changeAll change => store.mapNodes change
  | .changeLive position change => store.changeLive position change
  | .changeFound key change => store.changeNode key change
  | .changeLinks change => store.mapLinks change
  | .select selection => store.applySelection selection
  | .showAll => store.showAll

def run (store : Store) (edits : List Edit) : Store := edits.foldl edit store

theorem map_keeps {change : Slot → Slot} (h : ∀ slot : Slot, slot.Keeps (change slot))
    (slots : List Slot) : List.Forall₂ Slot.Keeps slots (slots.map change) := by
  rw [List.forall₂_map_right_iff, List.forall₂_same]
  exact fun slot _ => h slot

theorem mapNodes_keeps (store : Store) (change : Node → Node) :
    List.Forall₂ Slot.Keeps store.slots (store.mapNodes change).slots := by
  refine map_keeps (fun slot => ?_) store.slots
  split
  · exact slot.keeps_node _
  · exact .refl slot

theorem changeFirst_keeps (test : Slot → Bool) (change : Node → Node) (slots : List Slot) :
    List.Forall₂ Slot.Keeps slots (changeFirst test change slots) := by
  induction slots with
  | nil => exact .nil
  | cons slot rest ih =>
      unfold changeFirst
      split
      · exact .cons (slot.keeps_node _) (Slot.keeps_all rest)
      · exact .cons (.refl slot) ih

theorem changeAt_keeps (change : Node → Node) (position : Nat) (slots : List Slot) :
    List.Forall₂ Slot.Keeps slots (changeAt change position slots) := by
  induction slots generalizing position with
  | nil => exact .nil
  | cons slot rest ih =>
      unfold changeAt
      split
      · cases position with
        | zero => exact .cons (slot.keeps_node _) (Slot.keeps_all rest)
        | succ before => exact .cons (.refl slot) (ih before)
      · exact .cons (.refl slot) (ih position)

theorem edit_keeps (store : Store) (edit : Edit) :
    List.Forall₂ Slot.Keeps store.slots (store.edit edit).slots := by
  cases edit with
  | retain keep =>
      refine map_keeps (fun slot => ?_) store.slots
      exact ⟨rfl, fun hretired => by rw [hretired, Bool.false_and]⟩
  | changeAll change => exact store.mapNodes_keeps change
  | changeLive position change => exact changeAt_keeps change position store.slots
  | changeFound key change =>
      have hreversed := changeFirst_keeps (·.key == key) change store.slots.reverse
      rw [← List.forall₂_reverse_iff]
      simpa [Store.edit, changeNode] using hreversed
  | changeLinks change => exact Slot.keeps_all store.slots
  | select selection => exact store.mapNodes_keeps _
  | showAll => exact store.mapNodes_keeps _

theorem run_keeps (store : Store) (edits : List Edit) :
    List.Forall₂ Slot.Keeps store.slots (store.run edits).slots := by
  induction edits generalizing store with
  | nil => exact Slot.keeps_all store.slots
  | cons edit rest ih => exact Slot.keeps_all_trans (store.edit_keeps edit) (ih (store.edit edit))

theorem run_retired {store : Store} {pos : Nat} {slot : Slot} (edits : List Edit)
    (hslot : store.slots[pos]? = some slot) (hretired : slot.live = false) :
    ∃ later, (store.run edits).slots[pos]? = some later ∧ later.live = false := by
  obtain ⟨later, hlater, hkeeps⟩ := Slot.keeps_getElem? (store.run_keeps edits) hslot
  exact ⟨later, hlater, hkeeps.retired hretired⟩

/-! ## Look-ups -/

theorem keys_run_ofData (nodes : List Node) (links : List Link) (edits : List Edit) :
    ((ofData nodes links).run edits).slots.map (·.key) = nodes.map (·.id) := by
  rw [Slot.keys_of_keeps (run_keeps _ edits)]
  simp [ofData]

theorem node?_isSome_iff {store : Store} {key : String} :
    (store.node? key).isSome = true ↔ key ∈ store.slots.map (·.key) := by
  simp [node?]

/-- The position of every key. Keys are entered in order, so of equal ones the last counts. -/
def indexOf (keys : List String) : Std.HashMap String Nat :=
  keys.zipIdx.foldl (fun index entry => index.insert entry.1 entry.2) ∅

theorem getElem?_indexOf (keys : List String) (key : String) :
    (indexOf keys)[key]? = keys.zipIdx.reverse.lookup key := by
  rw [indexOf, getElem?_foldl_insert, Std.HashMap.getElem?_empty, Option.or_none]

theorem getElem?_indexOf_concat (keys : List String) (last key : String) :
    (indexOf (keys ++ [last]))[key]? =
      if key = last then some keys.length else (indexOf keys)[key]? := by
  rw [getElem?_indexOf, getElem?_indexOf, List.zipIdx_append, List.reverse_append]
  simp [lookup_cons_eq_ite]

theorem lt_of_getElem?_indexOf {keys : List String} {key : String} {pos : Nat}
    (h : (indexOf keys)[key]? = some pos) : pos < keys.length := by
  rw [getElem?_indexOf] at h
  have hmem : (key, pos) ∈ keys.zipIdx := List.mem_reverse.mp (mem_of_lookup h)
  exact List.snd_lt_of_mem_zipIdx hmem

theorem find?_reverse_eq_index (slots : List Slot) (key : String) :
    slots.reverse.find? (·.key == key) = (indexOf (slots.map (·.key)))[key]?.bind (slots[·]?) := by
  induction slots using List.reverseRecOn with
  | nil => simp [getElem?_indexOf]
  | append_singleton slots slot ih =>
      rw [List.reverse_append, List.reverse_singleton, List.singleton_append, List.find?_cons,
        List.map_append, List.map_singleton, getElem?_indexOf_concat, ih]
      by_cases hkey : key = slot.key
      · simp [hkey]
      · rw [if_neg hkey, beq_eq_false_iff_ne.mpr (Ne.symm hkey)]
        cases hpos : (indexOf (slots.map (·.key)))[key]? with
        | none => rfl
        | some pos =>
            have hlt : pos < slots.length := by simpa using lt_of_getElem?_indexOf hpos
            simp [List.getElem?_append_left hlt]

/-- A look-up goes through an index that is made once, with the store: whatever is done later, it leads
to the slot of the last node that had the id then. -/
theorem node?_run_eq_index (nodes : List Node) (links : List Link) (edits : List Edit)
    (key : String) :
    let store := (ofData nodes links).run edits
    store.node? key =
      ((indexOf (nodes.map (·.id)))[key]?.bind (store.slots[·]?)).map (·.node) := by
  intro store
  rw [node?, find?_reverse_eq_index, keys_run_ofData]

/-- A look-up gives what the last slot with the key holds now. -/
theorem node?_of_last {store : Store} {before after : List Slot} {slot : Slot}
    (hslots : store.slots = before ++ slot :: after)
    (hlast : slot.key ∉ after.map (·.key)) : store.node? slot.key = some slot.node := by
  have hfound : store.slots.reverse.find? (·.key == slot.key) = some slot := by
    refine find?_reverse_eq_some_iff.mpr ⟨beq_self_eq_true _, before, after, hslots, ?_⟩
    intro other hother
    refine beq_eq_false_iff_ne.mpr fun hkey => hlast ?_
    exact List.mem_map.mpr ⟨other, hother, hkey⟩
  rw [node?, hfound, Option.map_some]

theorem exists_slot_of_last (edits : List Edit) {nodes before after : List Node} {node : Node}
    (links : List Link) (hnodes : nodes = before ++ node :: after)
    (hlast : ∀ other ∈ after, other.id ≠ node.id) :
    ∃ slot, ((ofData nodes links).run edits).slots[before.length]? = some slot ∧
      ((ofData nodes links).run edits).node? node.id = some slot.node := by
  have hkeys := keys_run_ofData nodes links edits
  rw [hnodes, List.map_append, List.map_cons] at hkeys
  obtain ⟨front, back, hslots, hfront, hback⟩ := List.map_eq_append_iff.mp hkeys
  obtain ⟨slot, rest, rfl, hkey, hrest⟩ := List.map_eq_cons_iff.mp hback
  have hlength : front.length = before.length := by simpa using congrArg List.length hfront
  subst hnodes
  refine ⟨slot, by simp [hslots, ← hlength], ?_⟩
  rw [← hkey]
  refine node?_of_last hslots ?_
  rw [hkey, hrest]
  rintro hmem
  obtain ⟨other, hother, hid⟩ := List.mem_map.mp hmem
  exact hlast other hother hid

theorem node?_ofData (nodes : List Node) (links : List Link) (id : String) :
    (ofData nodes links).node? id = nodes.reverse.find? (·.id == id) := by
  simp [node?, ofData, ← List.map_reverse, List.find?_map, Function.comp_def]

theorem node?_copy_eq_some_iff {store : Store} {id : String} {node : Node} :
    store.copy.node? id = some node ↔
      node.id = id ∧ ∃ before after, store.nodes = before ++ node :: after ∧
        ∀ other ∈ after, other.id ≠ id := by
  rw [copy, node?_ofData, find?_reverse_eq_some_iff]
  simp only [beq_iff_eq, beq_eq_false_iff_ne]

theorem node?_copy_eq_none_iff {store : Store} {id : String} :
    store.copy.node? id = none ↔ ∀ node ∈ store.nodes, node.id ≠ id := by
  rw [copy, node?_ofData, List.find?_eq_none]
  simp

/-- A store through a run of edits. It keeps its slots, and a retired one stays retired. A look-up
finds the ids that there were when the store was made, and gives what the last slot made with the id
holds now. At any point a copy has the same nodes and links, and there a look-up gives the last live
node that has the id now. -/
theorem run_lookups (nodes : List Node) (links : List Link) (edits : List Edit) :
    let start := ofData nodes links
    let store := start.run edits
    store.slots.length = nodes.length ∧
    (∀ before after, edits = before ++ after → ∀ (pos : Nat) (slot : Slot),
      (start.run before).slots[pos]? = some slot → slot.live = false →
      ∃ later, store.slots[pos]? = some later ∧ later.live = false) ∧
    (∀ id, (store.node? id).isSome = true ↔ id ∈ nodes.map (·.id)) ∧
    (∀ before node after, nodes = before ++ node :: after → (∀ other ∈ after, other.id ≠ node.id) →
      ∃ slot, store.slots[before.length]? = some slot ∧ store.node? node.id = some slot.node) ∧
    store.copy.toGraph = store.toGraph ∧
    (∀ id node, store.copy.node? id = some node ↔
      node.id = id ∧ ∃ before after, store.nodes = before ++ node :: after ∧
        ∀ other ∈ after, other.id ≠ id) ∧
    ∀ id, store.copy.node? id = none ↔ ∀ node ∈ store.nodes, node.id ≠ id := by
  intro start store
  have hkeys := keys_run_ofData nodes links edits
  refine ⟨by simpa using congrArg List.length hkeys, ?_, ?_, ?_, ?_,
    fun _ _ => node?_copy_eq_some_iff, fun _ => node?_copy_eq_none_iff⟩
  · rintro before after rfl pos slot hslot hretired
    have hrest := run_retired after hslot hretired
    rwa [run, run, ← List.foldl_append] at hrest
  · intro id
    rw [node?_isSome_iff, hkeys]
  · intro before node after hnodes hlast
    exact exists_slot_of_last edits links hnodes hlast
  · simp [toGraph]

end Store
end ActionAtlas
