import ActionAtlas.Pattern.CharSet

/-!
# Patterns

What a pattern describes, apart from how it is written.
-/

namespace ActionAtlas.Pattern

/-- A condition on a place between two characters. The flag of a word condition says whether words are
those of all scripts. -/
inductive Look where
  | start
  | stop
  | lineStart
  | lineStop
  /-- Lines that end in a carriage return, a newline or both. -/
  | eitherLineStart
  | eitherLineStop
  | wordEdge (wide : Bool)
  | noWordEdge (wide : Bool)
  | wordStart (wide : Bool)
  | wordStop (wide : Bool)
  | wordStartHalf (wide : Bool)
  | wordStopHalf (wide : Bool)
  deriving DecidableEq, Repr

/-- A pattern. A repetition has a least and possibly a greatest count, and is greedy or not. -/
inductive Expr where
  | empty
  | set (members : CharSet)
  | look (condition : Look)
  | sequence (parts : List Expr)
  | choice (options : List Expr)
  | group (captures : Bool) (inner : Expr)
  | loop (least : Nat) (most : Option Nat) (greedy : Bool) (inner : Expr)

namespace Expr

mutual

def isNullable : Expr → Bool
  | .empty | .look _ => true
  | .set _ => false
  | .sequence parts => allNullable parts
  | .choice options => anyNullable options
  | .group _ inner => inner.isNullable
  | .loop least _ _ inner => least == 0 || inner.isNullable

def allNullable : List Expr → Bool
  | [] => true
  | e :: rest => e.isNullable && allNullable rest

def anyNullable : List Expr → Bool
  | [] => false
  | e :: rest => e.isNullable || anyNullable rest

end

mutual

def depth : Expr → Nat
  | .empty | .set _ | .look _ => 0
  | .sequence parts => depthOf parts + 1
  | .choice options => depthOf options + 1
  | .group _ inner => inner.depth + 1
  | .loop _ _ _ inner => inner.depth + 1

def depthOf : List Expr → Nat
  | [] => 0
  | e :: rest => max e.depth (depthOf rest)

end

def depthLimit : Nat := 250

end Expr
end ActionAtlas.Pattern
