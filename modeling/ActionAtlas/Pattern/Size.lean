import ActionAtlas.Pattern.Basic
import ActionAtlas.Pattern.Encoding

/-!
# The size of patterns

A pattern is searched for by a machine that reads bytes, in both directions. The memory that its states
take bounds how large a pattern may be.
-/

namespace ActionAtlas.Pattern

inductive Direction where
  | forward
  | backward
  deriving DecidableEq

namespace Size

def state : Nat := 32

/-- The memory of a state with several ways out, and of each of them. -/
def branch : Nat := 4

def edge : Nat := 8

def fork : Nat := state + 2 * branch

def total (sizes : List Nat) : Nat := sizes.foldl (· + ·) 0

/-! ## Sets -/

/-- How many ranges two writings have in common at their beginning. -/
def commonStart : Bytes → Bytes → Nat
  | a :: as, b :: bs => if a = b then commonStart as bs + 1 else 0
  | _, _ => 0

/-- How many states write a list of characters, where a beginning is shared with the one before. -/
def stepCount : Bytes → List Bytes → Nat
  | _, [] => 0
  | before, written :: rest => written.length - commonStart before written + stepCount written rest

def remainders : Nat → List Bytes → List (List Bytes)
  | 0, _ => []
  | depth + 1, written =>
      written :: (written.splitBy fun a b => a.head? == b.head?).flatMap fun alike =>
        match (alike.map List.tail).filter (!·.isEmpty) with
        | [] => []
        | tails => remainders depth tails

def edgeCount (written : List Bytes) : Nat :=
  (written.splitBy fun a b => a.head? == b.head?).length

/-- The memory for a set of characters beyond ASCII. Backward, beginnings are shared; forward, equal
remainders are. -/
def ofBytes (written : List Bytes) : Direction → Nat
  | .backward => state * (stepCount [] written + 2) + branch * written.length
  | .forward =>
      state + total ((remainders 4 written).eraseDups.map fun left => state + edge * edgeCount left)

def ofSet (direction : Direction) (members : CharSet) : Nat :=
  match members.stretches with
  | [(first, last)] =>
      if first = last then state * (Char.ofNat first).utf8Size
      else if last < 128 then 2 * state + edge
      else ofBytes (Bytes.ofStretch (first, last)) direction
  | stretches =>
      if stretches.all fun (_, last) => last < 128 then 2 * state + edge * stretches.length
      else ofBytes (stretches.flatMap Bytes.ofStretch) direction

end Size

namespace Expr

open Size

mutual

/-- The memory for a pattern in one direction. Only forward are captures kept. -/
def size (direction : Direction) : Expr → Nat
  | .empty | .look _ => state
  | .set members => Size.ofSet direction members
  | .sequence parts => sizeOfAll direction parts
  | .choice options => 2 * state + branch * options.length + sizeOfAll direction options
  | .group captures inner =>
      inner.size direction + (if captures && direction == .forward then 2 * state else 0)
  | .loop least most _ inner =>
      let once := inner.size direction
      match most with
      | some most =>
          if least = most then least * once
          else least * once + (most - least) * (once + fork) + state
      | none => max least 1 * once + fork

def sizeOfAll (direction : Direction) : List Expr → Nat
  | [] => 0
  | e :: rest => e.size direction + sizeOfAll direction rest

end

def sizeLimit : Nat := 10 * 1024 * 1024

def fits (expr : Expr) : Bool :=
  expr.size .backward ≤ sizeLimit && expr.size .forward ≤ sizeLimit

end Expr
end ActionAtlas.Pattern
