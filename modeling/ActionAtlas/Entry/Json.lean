import ActionAtlas.Entry
import ActionAtlas.Json.Reading

/-!
# Written form of an analysis

A usage is an object whose `type` says its kind; readers also take the kind in the spelling of running
text, and a list that starts with it.
-/

namespace ActionAtlas

open Json

/-! ## Writing -/

def Usage.toJson (usage : Usage) : Value :=
  let tag := ("type", .str usage.kind.tag)
  match usage.name? with
  | some name => .obj [tag, ("name", .str name)]
  | none => .obj [tag]

def ReferenceEntry.toJson (reference : ReferenceEntry) : Value :=
  .obj
    [("filePath", .str reference.filePath),
      ("line", .nat reference.line.toNat),
      ("usages", .arr (reference.usages.map Usage.toJson))]

def ActionEntry.toJson (action : ActionEntry) : Value :=
  .obj
    [("name", .str action.name),
      ("filePath", .str action.filePath),
      ("line", .nat action.line.toNat),
      ("references", .arr (action.references.map ReferenceEntry.toJson))]

def ActionEntry.listToJson (actions : List ActionEntry) : Value :=
  .arr (actions.map ActionEntry.toJson)

/-! ## Reading a usage -/

namespace Usage

/-- The words for the kinds, each in its two spellings. -/
def words : List (String × UsageKind) :=
  UsageKind.all.flatMap fun kind => [(kind.tag, kind), (kind.label, kind)]

def readKind (s : Scanned) : Read UsageKind := do
  let word ← s.readTextAs "variant identifier"
  match words.lookup word with
  | some kind => return kind
  | none => Read.problem (.unknownVariant word (words.map (·.1)))

def ofName? : UsageKind → Option (String → Usage)
  | .effect => some .effect
  | .method => some .method
  | .constructor => some .constructor
  | .unknown | .instantiate | .reducer => none

def plain : UsageKind → Usage
  | .instantiate => .instantiate
  | .reducer => .reducer
  | _ => .unknown

def ofFields (kind : UsageKind) (fields : List (String × Scanned)) : Read Usage :=
  match ofName? kind with
  | none => .ok (plain kind)
  | some make => do
      let name? ← foldFields
        (fun place field value =>
          if field = "name" then fillOnce "name" place value.readText else .ok place)
        none fields
      return make (← required "name" name?)

/-- How many items a list may have beyond what was taken from it. -/
def nothingBeyond (taken : Nat) (left : List Scanned) : Read Unit :=
  if left.isEmpty then .ok ()
  else
    Read.problem (.wrongLength (taken + left.length)
      (if taken = 1 then "1 element in sequence" else toString taken ++ " elements in sequence"))

def ofItems (kind : UsageKind) (items : List Scanned) : Read Usage :=
  match ofName? kind, items with
  | none, left => do
      nothingBeyond 0 left
      return plain kind
  | some _, [] =>
      Read.problem (.wrongLength 0 ("struct variant Usage::" ++ kind.label ++ " with 1 element"))
  | some make, first :: left => do
      let name ← first.readText
      nothingBeyond 1 left
      return make name

/-- A value that is kept for later must be complete and not nested too deeply. -/
def buildable (level : Nat) (s : Scanned) : Read Unit :=
  match s.build level with
  | .ok _ => .ok ()
  | .error fault => Read.fault fault

def buildableAll (level : Nat) : List Scanned → Read Unit
  | [] => .ok ()
  | item :: rest => do
      buildable level item
      buildableAll level rest

/-- What is known of an object so far: its kind, and the fields to be looked at once it is known. -/
structure Draft where
  kind : Option UsageKind
  fields : List (String × Scanned)

/-- Read a usage that stands `level` lists and objects deep. The whole of it is read before its fields
are looked at, because the kind may come last. -/
def read (level : Nat) : Scanned → Read Usage
  | .object fields close => do
      if Scanned.nestingLimit ≤ level then Read.fault .malformed
      let draft ← foldFields
        (fun (draft : Draft) name value =>
          if name = "type" then do
            let kind ← fillOnce "type" draft.kind (readKind value)
            return { draft with kind := kind }
          else do
            buildable (level + 1) value
            return { draft with fields := draft.fields ++ [(name, value)] })
        { kind := none, fields := [] } fields
      Read.unless? close
      ofFields (← required "type" draft.kind) draft.fields
  | .array items close => do
      if Scanned.nestingLimit ≤ level then Read.fault .malformed
      match items with
      | [] =>
          Read.unless? close
          Read.problem (.missingField "type")
      | first :: rest =>
          let kind ← readKind first
          buildableAll (level + 1) rest
          Read.unless? close
          ofItems kind rest
  | other => other.mismatch "internally tagged enum Usage"

end Usage

/-! ## Reading entries -/

namespace ReferenceEntry

structure Draft where
  filePath : Option String := none
  line : Option UInt32 := none
  usages : Option (List Usage) := none

def record (level : Nat) : Record Draft ReferenceEntry where
  wanted := "struct ReferenceExport"
  start := {}
  field draft name value :=
    match name with
    | "filePath" => do
        return { draft with filePath := ← fillOnce name draft.filePath value.readText }
    | "line" => do
        return { draft with line := ← fillOnce name draft.line value.readLine }
    | "usages" => do
        return { draft with usages := ← fillOnce name draft.usages (readUsages value) }
    | _ => do
        value.skip
        return draft
  complete draft := do
    let filePath ← required "filePath" draft.filePath
    let line ← required "line" draft.line
    return { filePath := filePath, line := line, usages := draft.usages.getD [] }
  ofItems items := do
    let wanted := "struct ReferenceExport with 3 elements"
    let (filePath, items) ← items.next wanted Scanned.readText
    let (line, items) ← items.next wanted Scanned.readLine
    let (usages, items) ← items.next? readUsages
    return ({ filePath := filePath, line := line, usages := usages.getD [] }, items)
where
  readUsages : Scanned → Read (List Usage) := Scanned.readList (Usage.read (level + 2))

end ReferenceEntry

namespace ActionEntry

structure Draft where
  name : Option String := none
  filePath : Option String := none
  line : Option UInt32 := none
  references : Option (List ReferenceEntry) := none

def record (level : Nat) : Record Draft ActionEntry where
  wanted := "struct ActionExport"
  start := {}
  field draft name value :=
    match name with
    | "name" => do
        return { draft with name := ← fillOnce name draft.name value.readText }
    | "filePath" => do
        return { draft with filePath := ← fillOnce name draft.filePath value.readText }
    | "line" => do
        return { draft with line := ← fillOnce name draft.line value.readLine }
    | "references" => do
        return { draft with references := ← fillOnce name draft.references (readReferences value) }
    | _ => do
        value.skip
        return draft
  complete draft := do
    let name ← required "name" draft.name
    let filePath ← required "filePath" draft.filePath
    let line ← required "line" draft.line
    return {
      name := name, filePath := filePath, line := line, references := draft.references.getD [] }
  ofItems items := do
    let wanted := "struct ActionExport with 4 elements"
    let (name, items) ← items.next wanted Scanned.readText
    let (filePath, items) ← items.next wanted Scanned.readText
    let (line, items) ← items.next wanted Scanned.readLine
    let (references, items) ← items.next? readReferences
    return ({
      name := name, filePath := filePath, line := line, references := references.getD [] }, items)
where
  readReferences : Scanned → Read (List ReferenceEntry) :=
    Scanned.readList ((ReferenceEntry.record (level + 2)).read .text)

def readList (s : Scanned) : Read (List ActionEntry) :=
  s.readList ((record 1).read .text)

end ActionEntry

/-- Finish reading a text: behind its value there may be nothing. -/
def Json.Read.whole {α : Type} (read : Scanned → Read α) (input : String) : Read α := do
  let (scanned, behind) := Scanned.ofText input
  let value ← read scanned
  Read.unless? behind
  return value

def ActionEntry.listOfText (input : String) : Read (List ActionEntry) :=
  Read.whole ActionEntry.readList input

def Usage.ofText (input : String) : Read Usage :=
  Read.whole (Usage.read 0) input

end ActionAtlas
