import ActionAtlas.Usage

/-!
# Entries of an analysis

An analysis lists the actions of a project, each with the places that refer to it. These are the
records that one run writes and that the graph is built from.
-/

namespace ActionAtlas

structure ReferenceEntry where
  filePath : String
  line : UInt32
  usages : List Usage
  deriving DecidableEq, Repr

structure ActionEntry where
  name : String
  filePath : String
  line : UInt32
  references : List ReferenceEntry
  deriving DecidableEq, Repr

namespace ReferenceEntry

def hasUsage (reference : ReferenceEntry) (kind : UsageKind) : Bool :=
  reference.usages.any (·.kind == kind)

/-- A reference says nothing when it has no usage, or when its only usage is an instantiation. -/
def isNoise (reference : ReferenceEntry) : Bool :=
  match reference.usages with
  | [] => true
  | [usage] => usage.kind == .instantiate
  | _ => false

def dominant? (reference : ReferenceEntry) : Option Usage :=
  Usage.dominant? reference.usages

def dominantKind (reference : ReferenceEntry) : UsageKind :=
  (reference.dominant?.map (·.kind)).getD .unknown

def dominantName? (reference : ReferenceEntry) : Option String :=
  reference.dominant?.bind (·.name?)

def id (reference : ReferenceEntry) : String :=
  let base := reference.dominantKind.label ++ "::" ++ reference.filePath
  match reference.dominantName? with
  | some name => base ++ "::" ++ name
  | none => base

end ReferenceEntry

namespace ActionEntry

def id (action : ActionEntry) : String :=
  "Action::" ++ action.filePath ++ "::" ++ action.name

def relevant (action : ActionEntry) : List ReferenceEntry :=
  action.references.filter (!·.isNoise)

end ActionEntry
end ActionAtlas
