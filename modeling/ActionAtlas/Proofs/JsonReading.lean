import ActionAtlas.Json.Reading
import ActionAtlas.Proofs.JsonText

/-!
# Typed reading of written values

A reader of records meets the fields of an object in the order of the text when it reads a text, and
sorted by name when a value was built first. Here is what building makes of a written value, and what
the readers of the plain types give on values that were written from them.
-/

namespace ActionAtlas
namespace Json

/-! ## Reading that goes on -/

@[simp] theorem Read.ok_bind {α β : Type} (value : α) (next : α → Read β) :
    ((.ok value : Read α) >>= next) = next value := rfl

@[simp] theorem Read.unless?_none : Read.unless? none = .ok () := rfl

@[simp] theorem fillOnce_ok {α : Type} (name : String) (value : α) :
    fillOnce name none (.ok value) = .ok (some value) := rfl

@[simp] theorem required_some {α : Type} (name : String) (value : α) :
    required name (some value) = .ok value := rfl

/-! ## Plain types -/

namespace Scanned

@[simp] theorem readText_string (content : String) :
    readText (.string (.ok content)) = .ok content := rfl

@[simp] theorem readBool_bool (value : Bool) : readBool (.bool value) = .ok value := rfl

theorem readBelow_nat {limit n : Nat} (h : n < limit) (wanted : String) :
    readBelow limit wanted (ofValue (.nat n)) = .ok n := by
  simp [readBelow, Value.nat, ofValue, h]

@[simp] theorem readLine_nat (line : UInt32) : readLine (ofValue (.nat line.toNat)) = .ok line := by
  rw [readLine, readBelow_nat line.toNat_lt]
  simp [Except.map]

@[simp] theorem readOption_text (content : String) :
    readOption readText (.string (.ok content)) = .ok (some content) := rfl

@[simp] theorem readOption_line (line : UInt32) :
    readOption readLine (ofValue (.nat line.toNat)) = .ok (some line) := by
  have hgiven : readOption readLine (ofValue (.nat line.toNat)) =
      (readLine (ofValue (.nat line.toNat))).map some := rfl
  rw [hgiven, readLine_nat]
  rfl

theorem readItems_ofItems {α : Type} {read : Scanned → Read α} (write : α → Value) (items : List α)
    (h : ∀ item ∈ items, read (ofValue (write item)) = .ok item) :
    readItems read (ofItems (items.map write)) = .ok items := by
  induction items with
  | nil => rfl
  | cons item rest ih =>
      have hitem := h item List.mem_cons_self
      have hrest := ih fun item hitem => h item (.tail _ hitem)
      simp [ofItems, readItems, hitem, hrest]

/-- A list whose items read back reads back. -/
theorem readList_ofValue {α : Type} {read : Scanned → Read α} (write : α → Value) (items : List α)
    (h : ∀ item ∈ items, read (ofValue (write item)) = .ok item) :
    readList read (ofValue (.arr (items.map write))) = .ok items := by
  simp [ofValue, readList, readItems_ofItems write items h]

mutual

theorem skipFault?_ofValue : (value : Value) → (ofValue value).skipFault? = none
  | .null => rfl
  | .bool _ => rfl
  | .num _ => rfl
  | .str _ => rfl
  | .arr items => by rw [ofValue, skipFault?, skipFaultItems?_ofItems items, Option.none_or]
  | .obj fields => by rw [ofValue, skipFault?, skipFaultFields?_ofFields fields, Option.none_or]

theorem skipFaultItems?_ofItems : (items : List Value) → skipFaultItems? (ofItems items) = none
  | [] => rfl
  | item :: rest => by
      rw [ofItems, skipFaultItems?, skipFault?_ofValue item, skipFaultItems?_ofItems rest,
        Option.none_or]

theorem skipFaultFields?_ofFields :
    (fields : List (String × Value)) → skipFaultFields? (ofFields fields) = none
  | [] => rfl
  | (_, item) :: rest => by
      rw [ofFields, skipFaultFields?, skipFault?_ofValue item, skipFaultFields?_ofFields rest,
        Option.none_or]

end

end Scanned

/-! ## Built values -/

namespace Value

mutual

/-- A value with the fields of every object sorted by name; of equal names the last one stays. -/
def sorted : Value → Value
  | .null => .null
  | .bool value => .bool value
  | .num value => .num value
  | .str value => .str value
  | .arr items => .arr (sortedItems items)
  | .obj fields => .obj (sortedFields fields [])

def sortedItems : List Value → List Value
  | [] => []
  | item :: rest => sorted item :: sortedItems rest

def sortedFields : List (String × Value) → List (String × Value) → List (String × Value)
  | [], done => done
  | (name, item) :: rest, done => sortedFields rest (insertField name (sorted item) done)

end

theorem sortedItems_eq_map (items : List Value) : sortedItems items = items.map sorted := by
  induction items with
  | nil => rfl
  | cons item rest ih => rw [sortedItems, ih, List.map_cons]

/-- A value that stands `level` lists and objects deep is not nested more deeply than it may be. -/
inductive Fits : Nat → Value → Prop where
  | null {level : Nat} : Fits level .null
  | bool {level : Nat} (value : Bool) : Fits level (.bool value)
  | num {level : Nat} (value : Number) : Fits level (.num value)
  | str {level : Nat} (content : String) : Fits level (.str content)
  | arr {level : Nat} {items : List Value} (hlevel : level < Scanned.nestingLimit)
      (h : ∀ item ∈ items, Fits (level + 1) item) : Fits level (.arr items)
  | obj {level : Nat} {fields : List (String × Value)} (hlevel : level < Scanned.nestingLimit)
      (h : ∀ field ∈ fields, Fits (level + 1) field.2) : Fits level (.obj fields)

section Fits

variable {level : Nat}

@[simp] theorem fits_bool (value : Bool) : Fits level (.bool value) := .bool value

@[simp] theorem fits_nat (n : Nat) : Fits level (.nat n) := .num _

@[simp] theorem fits_str (content : String) : Fits level (.str content) := .str content

@[simp] theorem fits_arr_iff {items : List Value} :
    Fits level (.arr items) ↔
      level < Scanned.nestingLimit ∧ ∀ item ∈ items, Fits (level + 1) item :=
  ⟨fun | .arr hlevel h => ⟨hlevel, h⟩, fun h => .arr h.1 h.2⟩

@[simp] theorem fits_obj_iff {fields : List (String × Value)} :
    Fits level (.obj fields) ↔
      level < Scanned.nestingLimit ∧ ∀ field ∈ fields, Fits (level + 1) field.2 :=
  ⟨fun | .obj hlevel h => ⟨hlevel, h⟩, fun h => .obj h.1 h.2⟩

end Fits
end Value

namespace Scanned

theorem buildItems_ofItems {level : Nat} {items : List Value}
    (h : ∀ item ∈ items, build level (ofValue item) = .ok item.sorted) :
    buildItems level (ofItems items) = .ok (Value.sortedItems items) := by
  induction items with
  | nil => rfl
  | cons item rest ih =>
      have hitem := h item List.mem_cons_self
      have hrest := ih fun item hitem => h item (.tail _ hitem)
      simp [ofItems, buildItems, Value.sortedItems, hitem, hrest, Except.map]

theorem buildFields_ofFields {level : Nat} {fields : List (String × Value)}
    (h : ∀ field ∈ fields, build level (ofValue field.2) = .ok field.2.sorted)
    (done : List (String × Value)) :
    buildFields level (ofFields fields) done = .ok (Value.sortedFields fields done) := by
  induction fields generalizing done with
  | nil => rfl
  | cons field rest ih =>
      have hfield := h field List.mem_cons_self
      have hrest := ih fun field hfield => h field (.tail _ hfield)
      simp [ofFields, buildFields, Value.sortedFields, hfield, hrest]

/-- Building a tree without faults gives the value it was made from, with its fields sorted. -/
theorem build_ofValue {level : Nat} {value : Value} (h : value.Fits level) :
    build level (ofValue value) = .ok value.sorted := by
  induction h with
  | null | bool _ | num _ | str _ => rfl
  | arr hlevel _ ih =>
      simp [ofValue, build, Nat.not_le.mpr hlevel, buildItems_ofItems ih, Value.sorted]
  | obj hlevel _ ih =>
      simp [ofValue, build, Nat.not_le.mpr hlevel, buildFields_ofFields ih, Value.sorted]

end Scanned

/-- A value reads back from both of its layouts, with its fields sorted. -/
theorem Value.ofText_written {value : Value} (hintegral : value.Integral) (hfits : value.Fits 0) :
    Value.ofText value.compact = .ok value.sorted ∧ Value.ofText value.pretty = .ok value.sorted := by
  constructor
  · simp [Value.ofText, ofText_compact hintegral, Scanned.build_ofValue hfits]
  · simp [Value.ofText, ofText_pretty hintegral, Scanned.build_ofValue hfits]

end Json
end ActionAtlas
