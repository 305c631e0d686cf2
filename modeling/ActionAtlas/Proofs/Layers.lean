import ActionAtlas.Options.Loading
import ActionAtlas.Proofs.NamedEntries
import ActionAtlas.Proofs.Settings
import Mathlib.Data.String.Basic

/-!
# Layers of settings

A layer on top of another one is looked up first, name by name. For this it may not hold a name
twice, and no layer does: the fields of a file and of the environment are sorted by name, and settings
given on the spot have names of their own. The names in the environment and of settings given on the
spot are in small letters; those in a file are as they are written.
-/

namespace ActionAtlas

open Json

/-! ## Fields sorted by name -/

namespace Json

/-- Each name comes once, in the order of names. -/
def SortedByName (fields : List (String × Value)) : Prop :=
  (fields.map (·.1)).Pairwise (· < ·)

theorem SortedByName.nodup {fields : List (String × Value)} (h : SortedByName fields) :
    (fields.map (·.1)).Nodup :=
  h.imp fun hlt => ne_of_lt hlt

theorem sortedByName_nil : SortedByName [] := List.Pairwise.nil

theorem mem_names_insertField {name other : String} {value : Value}
    {fields : List (String × Value)} :
    other ∈ (insertField name value fields).map (·.1) ↔
      other = name ∨ other ∈ fields.map (·.1) := by
  induction fields with
  | nil => simp [insertField]
  | cons field rest ih =>
      obtain ⟨head, old⟩ := field
      unfold insertField
      by_cases hsame : name = head
      · simp [hsame]
      · by_cases hlt : name < head
        · simp [hsame, hlt]
        · rw [if_neg hsame, if_neg hlt]
          simp only [List.map_cons, List.mem_cons, ih]
          exact or_left_comm

theorem lookup_insertField (name other : String) (value : Value)
    (fields : List (String × Value)) :
    (insertField name value fields).lookup other =
      if other = name then some value else fields.lookup other := by
  induction fields with
  | nil => exact lookup_cons_eq_ite other name value []
  | cons field rest ih =>
      obtain ⟨head, old⟩ := field
      unfold insertField
      by_cases hsame : name = head
      · subst hsame
        rw [if_pos rfl, lookup_cons_eq_ite, lookup_cons_eq_ite]
        by_cases h : other = name <;> simp [h]
      · rw [if_neg hsame]
        by_cases hlt : name < head
        · rw [if_pos hlt, lookup_cons_eq_ite]
        · rw [if_neg hlt, lookup_cons_eq_ite, lookup_cons_eq_ite, ih]
          by_cases h : other = head
          · simp [h, Ne.symm hsame]
          · simp [h]

theorem SortedByName.insertField {fields : List (String × Value)} (h : SortedByName fields)
    (name : String) (value : Value) : SortedByName (insertField name value fields) := by
  induction fields with
  | nil => simp [SortedByName, Json.insertField]
  | cons field rest ih =>
      obtain ⟨head, old⟩ := field
      obtain ⟨hhead, hrest⟩ := List.pairwise_cons.mp h
      unfold Json.insertField
      by_cases hsame : name = head
      · subst hsame
        rw [if_pos rfl]
        exact h
      · rw [if_neg hsame]
        by_cases hlt : name < head
        · rw [if_pos hlt]
          refine List.pairwise_cons.mpr ⟨?_, h⟩
          intro other hother
          rcases List.mem_cons.mp hother with rfl | hother
          · exact hlt
          · exact lt_trans hlt (hhead other hother)
        · rw [if_neg hlt]
          refine List.pairwise_cons.mpr ⟨?_, ih hrest⟩
          intro other hother
          rcases mem_names_insertField.mp hother with rfl | hother
          · exact lt_of_le_of_ne (not_lt.mp hlt) (Ne.symm hsame)
          · exact hhead other hother

end Json

/-! ## One layer on top of another -/

namespace Layer

theorem under_sorted {lower : Layer} (h : SortedByName lower) (upper : Layer) :
    SortedByName (lower.under upper) := by
  unfold under
  induction upper generalizing lower with
  | nil => exact h
  | cons field rest ih => exact ih (h.insertField field.1 field.2)

theorem mem_names_under {lower upper : Layer} {name : String} :
    name ∈ (lower.under upper).map (·.1) ↔
      name ∈ upper.map (·.1) ∨ name ∈ lower.map (·.1) := by
  unfold under
  induction upper generalizing lower with
  | nil => simp
  | cons field rest ih =>
      simp only [List.foldl_cons, ih, mem_names_insertField, List.map_cons, List.mem_cons]
      exact or_left_comm.trans or_assoc.symm

/-- A name means what the upper layer says, if it says anything. -/
theorem lookup_under (lower : Layer) {upper : Layer} (h : (upper.map (·.1)).Nodup)
    (name : String) :
    (lower.under upper).lookup name = (upper.lookup name).or (lower.lookup name) := by
  unfold under
  induction upper generalizing lower with
  | nil => rfl
  | cons field rest ih =>
      obtain ⟨head, value⟩ := field
      rw [List.map_cons, List.nodup_cons] at h
      rw [List.foldl_cons, ih _ h.2, lookup_insertField, lookup_cons_eq_ite]
      by_cases hname : name = head
      · subst hname
        rw [lookup_eq_none_of_not_mem h.1]
        simp
      · simp [hname]

end Layer

/-! ## Where layers come from -/

namespace Json

theorem buildFields_sorted {level : Nat} {fields : List (String × Scanned)}
    {done built : List (String × Value)} (hdone : SortedByName done)
    (h : Scanned.buildFields level fields done = .ok built) : SortedByName built := by
  induction fields generalizing done with
  | nil =>
      rw [Scanned.buildFields, Except.ok.injEq] at h
      exact h ▸ hdone
  | cons field rest ih =>
      obtain ⟨name, item⟩ := field
      rw [Scanned.buildFields] at h
      cases hitem : Scanned.build level item with
      | error fault => simp [hitem] at h
      | ok value =>
          rw [hitem] at h
          exact ih (hdone.insertField name value) h

theorem build_obj_sorted {level : Nat} {scanned : Scanned} {fields : List (String × Value)}
    (h : scanned.build level = .ok (.obj fields)) : SortedByName fields := by
  unfold Scanned.build at h
  cases scanned with
  | null | bool _ | broken _ => cases h
  | number value => cases value <;> cases h
  | string value => cases value <;> cases h
  | array items close =>
      simp only at h
      split at h
      · cases h
      · split at h <;> cases h
  | object entries close =>
      simp only at h
      split at h
      · cases h
      · split at h <;> cases h
        rename_i hbuilt
        exact buildFields_sorted sortedByName_nil hbuilt

theorem ofText_obj_sorted {text : String} {fields : List (String × Value)}
    (h : Value.ofText text = .ok (.obj fields)) : SortedByName fields := by
  unfold Value.ofText at h
  cases hbuilt : (Scanned.ofText text).1.build 0 with
  | error fault => simp [hbuilt] at h
  | ok value =>
      cases hbehind : (Scanned.ofText text).2 with
      | some fault => simp [hbuilt, hbehind] at h
      | none =>
          simp only [hbuilt, hbehind, Except.ok.injEq] at h
          exact build_obj_sorted (h ▸ hbuilt)

end Json

theorem Toml.fieldsToJson_sorted (fields : Toml.Fields) : SortedByName (fieldsToJson fields) := by
  induction fields with
  | nil => exact sortedByName_nil
  | cons field rest ih =>
      obtain ⟨key, item⟩ := field
      rw [fieldsToJson]
      exact ih.insertField key item.toJson

theorem ConfigFormat.layer?_sorted {format : ConfigFormat} {text : String} {layer : Layer}
    (h : format.layer? text = some layer) : SortedByName layer := by
  cases format with
  | json =>
      unfold layer? at h
      split at h
      · rename_i hformat
        cases hformat
      · split at h
        · rename_i fields hvalue
          cases h
          exact ofText_obj_sorted hvalue
        · cases h
  | toml =>
      obtain ⟨fields, _, rfl⟩ := Option.map_eq_some_iff.mp h
      exact Toml.fieldsToJson_sorted fields

theorem Options.fileLayer_sorted {files : Files} {path : String} {layer : Layer}
    (h : fileLayer files path = .ok layer) : SortedByName layer := by
  unfold fileLayer at h
  split at h
  · cases h
  · split at h
    · cases h
    · rename_i format _
      split at h <;> cases h
      rename_i hlayer
      obtain ⟨text, _, htext⟩ := Option.bind_eq_some_iff.mp hlayer
      exact ConfigFormat.layer?_sorted htext

/-! ### Spellings in small letters -/

def Layer.LowerCase (layer : Layer) : Prop :=
  ∀ name ∈ layer.map (·.1), ∀ c ∈ name.toList, c.isUpper = false

theorem isUpper_toLower (c : Char) : c.toLower.isUpper = false := by
  unfold Char.toLower
  split
  · rename_i h
    have hfirst : 65 ≤ c.val.toNat := UInt32.le_iff_toNat_le.mp h.1
    have hlast : c.val.toNat ≤ 90 := UInt32.le_iff_toNat_le.mp h.2
    have hshift : (c.val + ('a'.val - 'A'.val)).toNat = c.val.toNat + 32 := by
      have hstep : ('a'.val - 'A'.val).toNat = 32 := rfl
      rw [UInt32.toNat_add]
      omega
    have hout : ¬ c.val + ('a'.val - 'A'.val) ≤ 'Z'.val := by
      have hbound : 'Z'.val.toNat = 90 := rfl
      rw [UInt32.le_iff_toNat_le, hshift]
      omega
    exact decide_eq_false fun hupper => hout hupper.2
  · rename_i h
    exact decide_eq_false h

theorem mem_of_mem_trimBlank {text : List Char} {c : Char} (h : c ∈ trimBlank text) : c ∈ text := by
  unfold trimBlank at h
  have hrest := (List.dropWhile_sublist isBlank).subset (List.mem_reverse.mp h)
  exact (List.dropWhile_sublist isBlank).subset (List.mem_reverse.mp hrest)

namespace Environment

theorem settingPath?_lowerCase {key : String} {parts : List String}
    (h : settingPath? key = some parts) {part : String} (hpart : part ∈ parts) {c : Char}
    (hc : c ∈ part.toList) : c.isUpper = false := by
  obtain ⟨rest, hrest, hparts⟩ := Option.bind_eq_some_iff.mp h
  simp only at hparts
  split at hparts
  · cases hparts
  · cases hparts
    obtain ⟨piece, hpiece, rfl⟩ := List.mem_map.mp hpart
    rw [String.toList_ofList] at hc
    have hin : c ∈ rest := mem_of_mem_trimBlank (Segments.mem_of_mem_split hpiece hc)
    have hlower : c ∈ lowerCase (trimBlank key.toList) := by
      rw [dropStart?_eq_some_iff.mp hrest]
      exact List.mem_append_right _ hin
    obtain ⟨original, _, rfl⟩ := List.mem_map.mp hlower
    exact isUpper_toLower original

theorem settings_sorted (environment : List (String × String)) :
    SortedByName (settings environment) :=
  Layer.under_sorted sortedByName_nil _

theorem settings_lowerCase (environment : List (String × String)) :
    Layer.LowerCase (settings environment) := by
  intro name hname c hc
  have hgiven := Layer.mem_names_under.mp hname
  simp only [List.map_nil, List.not_mem_nil, or_false, List.mem_map, List.mem_filterMap] at hgiven
  obtain ⟨field, ⟨entry, _, hfield⟩, rfl⟩ := hgiven
  obtain ⟨parts, hparts, hfield⟩ := Option.bind_eq_some_iff.mp hfield
  cases parts with
  | nil => cases hfield
  | cons first rest =>
      cases hfield
      exact settingPath?_lowerCase hparts List.mem_cons_self hc

end Environment

theorem Options.givenField_names (name : String) (value : Option Value) :
    ((givenField name value).map (·.1)).Sublist [name] := by
  cases value <;> simp [givenField]

namespace Overrides

theorem names_sublist (overrides : Overrides) :
    (overrides.layer.map (·.1)).Sublist
      ["folder", "remove", "actions", "exclude", "empty_ref", "reducer_name_depth", "save"] := by
  unfold layer
  simp only [List.map_append]
  exact ((((((Options.givenField_names _ _).append (Options.givenField_names _ _)).append
    (Options.givenField_names _ _)).append (Options.givenField_names _ _)).append
    (Options.givenField_names _ _)).append (Options.givenField_names _ _)).append
    (Options.givenField_names _ _)

theorem names_nodup (overrides : Overrides) : (overrides.layer.map (·.1)).Nodup :=
  List.Nodup.sublist overrides.names_sublist (by decide)

theorem layer_lowerCase (overrides : Overrides) : overrides.layer.LowerCase := by
  have hspellings : ["folder", "remove", "actions", "exclude", "empty_ref", "reducer_name_depth",
      "save"].all (fun name => name.toList.all fun c => !c.isUpper) = true := by
    decide
  intro name hname c hc
  have hname := List.all_eq_true.mp hspellings name (overrides.names_sublist.subset hname)
  simpa using List.all_eq_true.mp hname c hc

end Overrides
end ActionAtlas
