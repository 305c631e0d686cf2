import ActionAtlas.Analysis
import ActionAtlas.Graph.Build
import ActionAtlas.Proofs.JsonReading

/-!
# Saved analyses read back

The readers of entries work on the text itself, so the fields of a record arrive in the order they were
written in. They know how deep they stand only because a usage may not be nested too deeply.
-/

namespace ActionAtlas

open Json

/-! ## Usages -/

namespace Usage

theorem toJson_integral (usage : Usage) : usage.toJson.Integral := by
  cases usage <;> simp [toJson, name?]

@[simp] theorem readKind_tag (kind : UsageKind) :
    readKind (.string (.ok kind.tag)) = .ok kind := by
  cases kind <;> rfl

@[simp] theorem buildable_string (level : Nat) (content : String) :
    buildable level (.string (.ok content)) = .ok () := rfl

-- The kind comes first, so the name is kept aside and looked at once the object has ended.
theorem read_toJson (usage : Usage) {level : Nat} (hlevel : level < Scanned.nestingLimit) :
    Usage.read level (Scanned.ofValue usage.toJson) = .ok usage := by
  have hfits : ¬ Scanned.nestingLimit ≤ level := by omega
  cases usage <;>
    simp [toJson, name?, kind, Scanned.ofValue, Scanned.ofFields, Usage.read, hfits, foldFields,
      Usage.ofFields, ofName?, plain]

end Usage

/-! ## Entries -/

namespace ReferenceEntry

theorem toJson_integral (reference : ReferenceEntry) : reference.toJson.Integral := by
  simp [toJson, Usage.toJson_integral]

theorem read_toJson (reference : ReferenceEntry) {level : Nat}
    (hlevel : level + 2 < Scanned.nestingLimit) :
    (record level).read .text (Scanned.ofValue reference.toJson) = .ok reference := by
  have husages : record.readUsages level
      (Scanned.ofValue (.arr (reference.usages.map Usage.toJson))) = .ok reference.usages :=
    Scanned.readList_ofValue Usage.toJson reference.usages fun usage _ => usage.read_toJson hlevel
  rw [Scanned.ofValue] at husages
  simp [toJson, Scanned.ofValue, Scanned.ofFields, Record.read, foldFields, record, husages]

end ReferenceEntry

namespace ActionEntry

theorem toJson_integral (action : ActionEntry) : action.toJson.Integral := by
  simp [toJson, ReferenceEntry.toJson_integral]

theorem read_toJson (action : ActionEntry) {level : Nat}
    (hlevel : level + 4 < Scanned.nestingLimit) :
    (record level).read .text (Scanned.ofValue action.toJson) = .ok action := by
  have hreferences : record.readReferences level
      (Scanned.ofValue (.arr (action.references.map ReferenceEntry.toJson))) =
        .ok action.references :=
    Scanned.readList_ofValue ReferenceEntry.toJson action.references
      fun reference _ => reference.read_toJson hlevel
  rw [Scanned.ofValue] at hreferences
  simp [toJson, Scanned.ofValue, Scanned.ofFields, Record.read, foldFields, record, hreferences]

theorem listToJson_integral (actions : List ActionEntry) : (listToJson actions).Integral := by
  simp [listToJson, toJson_integral]

theorem readList_listToJson (actions : List ActionEntry) :
    readList (Scanned.ofValue (listToJson actions)) = .ok actions :=
  Scanned.readList_ofValue toJson actions fun action _ => action.read_toJson (by decide)

theorem listOfText_pretty (actions : List ActionEntry) :
    listOfText (listToJson actions).pretty = .ok actions := by
  simp [listOfText, Read.whole, Value.ofText_pretty (listToJson_integral actions),
    readList_listToJson]

end ActionEntry

/-- A saved analysis reads back without loss, and so gives the graph of the actions that were saved. -/
theorem Analysis.graph_of_text (analysis : Analysis) (depth : Nat) :
    ActionEntry.listOfText analysis.text = .ok analysis.actions ∧
      (ActionEntry.listOfText analysis.text).map (Graph.ofEntries depth) =
        .ok (Graph.ofEntries depth analysis.actions) := by
  have hread : ActionEntry.listOfText analysis.text = .ok analysis.actions :=
    ActionEntry.listOfText_pretty analysis.actions
  refine ⟨hread, ?_⟩
  rw [hread, Except.map]

end ActionAtlas
