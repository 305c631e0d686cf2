import ActionAtlas.Json.Value

/-!
# TOML tables

A document builds a tree of tables. How a table came about decides what may be added to it later: a
header declares a table once, keys with dots grow only tables made by keys with dots, and plain values
never grow.
-/

namespace ActionAtlas.Toml

open Json

/-- How a table came about: by a header of its own, by the header of a table below it, or by a key with
dots. -/
inductive Standing where
  | declared
  | implied
  | dotted
  deriving DecidableEq, Repr

inductive Item where
  | value (value : Value)
  | table (standing : Standing) (fields : List (String × Item))
  | tables (rows : List (List (String × Item)))
  deriving Inhabited

abbrev Fields := List (String × Item)

namespace Fields

def put (key : String) (item : Item) : Fields → Fields
  | [] => [(key, item)]
  | (other, old) :: rest =>
      if other = key then (key, item) :: rest else (other, old) :: put key item rest

def changeLast {α : Type} (change : α → Option α) : List α → Option (List α)
  | [] => none
  | [row] => (change row).map ([·])
  | row :: rest => (changeLast change rest).map (row :: ·)

/-- Go down along keys and change the table there. Tables on the way are made as needed; in a list of
tables the way goes through the last one. A key with dots does not enter a declared table. -/
def descend (made : Standing) (change : Standing → Fields → Option Fields) :
    List String → Standing → Fields → Option Fields
  | [], standing, fields => change standing fields
  | key :: path, _, fields =>
      match fields.lookup key with
      | none => (descend made change path made []).map fun inner => fields.put key (.table made inner)
      | some (.value _) => none
      | some (.table standing inner) =>
          if made = .dotted ∧ standing = .declared then none
          else (descend made change path standing inner).map fun inner =>
            fields.put key (.table standing inner)
      | some (.tables rows) =>
          (changeLast (descend made change path .declared) rows).map fun rows =>
            fields.put key (.tables rows)

/-- Give a key its value. The key may not be there yet, and a table that a key with dots leads to has to
be made by such keys. -/
def assign (path : List String) (key : String) (value : Value) (fields : Fields) : Option Fields :=
  descend .dotted
    (fun standing inner =>
      if decide (standing = .dotted) = path.isEmpty then none
      else if (inner.lookup key).isSome then none
      else some (inner.put key (.value value)))
    path .declared fields

/-- Declare the table of a header. It may be there only because a table below it is. -/
def declare (path : List String) (key : String) (fields : Fields) : Option Fields :=
  descend .implied
    (fun _ inner =>
      match inner.lookup key with
      | none => some (inner.put key (.table .declared []))
      | some (.table .implied below) => some (inner.put key (.table .declared below))
      | some _ => none)
    path .declared fields

def addRow (path : List String) (key : String) (fields : Fields) : Option Fields :=
  descend .implied
    (fun _ inner =>
      match inner.lookup key with
      | none => some (inner.put key (.tables [[]]))
      | some (.tables rows) => some (inner.put key (.tables (rows ++ [[]])))
      | some _ => none)
    path .declared fields

def assignIn (header : List String) (path : List String) (key : String) (value : Value)
    (fields : Fields) : Option Fields :=
  descend .implied (fun _ inner => assign path key value inner) header .declared fields

end Fields

/-! ## Values of tables -/

mutual

def Item.toJson : Item → Value
  | .value value => value
  | .table _ fields => .obj (fieldsToJson fields)
  | .tables rows => .arr (rowsToJson rows)

def fieldsToJson : List (String × Item) → List (String × Value)
  | [] => []
  | (key, item) :: rest => insertField key item.toJson (fieldsToJson rest)

def rowsToJson : List (List (String × Item)) → List Value
  | [] => []
  | row :: rest => .obj (fieldsToJson row) :: rowsToJson rest

end

end ActionAtlas.Toml
