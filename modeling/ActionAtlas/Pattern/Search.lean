import ActionAtlas.Pattern.Program
import ActionAtlas.Pattern.Reading

/-!
# Searching for patterns

All ways through a program are followed at once, one character at a time and in order of preference.
Of the matches that begin first, the preferred one is found.
-/

namespace ActionAtlas

namespace Pattern

structure Place where
  before : Option Char
  after : Option Char

def isWordChar (wide : Bool) (c : Option Char) : Bool :=
  c.any fun c => (if wide then CharSet.word else CharSet.asciiWord).holds c.toNat

def Look.holds (place : Place) : Look → Bool
  | .start => place.before.isNone
  | .stop => place.after.isNone
  | .lineStart => place.before.all (· == '\n')
  | .lineStop => place.after.all (· == '\n')
  | .eitherLineStart =>
      place.before.all fun c => c == '\n' || (c == '\r' && place.after != some '\n')
  | .eitherLineStop =>
      place.after.all fun c => c == '\r' || (c == '\n' && place.before != some '\r')
  | .wordEdge wide => isWordChar wide place.before != isWordChar wide place.after
  | .noWordEdge wide => isWordChar wide place.before == isWordChar wide place.after
  | .wordStart wide => !isWordChar wide place.before && isWordChar wide place.after
  | .wordStop wide => isWordChar wide place.before && !isWordChar wide place.after
  | .wordStartHalf wide => !isWordChar wide place.before
  | .wordStopHalf wide => !isWordChar wide place.after

/-- A way through a program: the instruction it waits at and where in the text it began. -/
structure Thread where
  pos : Nat
  origin : Nat

/-- The threads that wait, latest first, and the instructions that have been reached. -/
structure Waiting where
  threads : List Thread
  reached : Array Bool

/-- Follow the ways from the instructions on a stack to where they wait. An instruction that has been
reached by a preferred way is not entered again. -/
def follow (program : Array Instr) (place : Place) (origin : Nat) :
    Nat → List Nat → Waiting → Waiting
  | 0, _, waiting => waiting
  | _, [], waiting => waiting
  | steps + 1, pos :: stack, waiting =>
      if waiting.reached.getD pos true then follow program place origin steps stack waiting
      else
        let marked := { waiting with reached := waiting.reached.set! pos true }
        match program[pos]? with
        | some (.jump target) => follow program place origin steps (target :: stack) marked
        | some (.fork first second) => follow program place origin steps (first :: second :: stack) marked
        | some (.need condition) =>
            let stack := if condition.holds place then (pos + 1) :: stack else stack
            follow program place origin steps stack marked
        | some _ =>
            let threads := ⟨pos, origin⟩ :: marked.threads
            follow program place origin steps stack { marked with threads := threads }
        | none => follow program place origin steps stack marked

def enter (program : Array Instr) (place : Place) (thread : Thread) (waiting : Waiting) : Waiting :=
  follow program place thread.origin (3 * program.size + 3) [thread.pos] waiting

/-- The threads that have taken a character, up to the first that has matched, and the beginning of
that match. -/
def advance (program : Array Instr) (c : Option Char) : List Thread → List Thread × Option Nat
  | [] => ([], none)
  | thread :: rest =>
      match program[thread.pos]? with
      | some .accept => ([], some thread.origin)
      | some (.take members) =>
          let (moved, found) := advance program c rest
          if c.any fun c => members.holds c.toNat then (⟨thread.pos + 1, thread.origin⟩ :: moved, found)
          else (moved, found)
      | _ => advance program c rest

/-- Threads at a place: those that have come so far, and a new one unless a match has been found. -/
def gather (program : Array Instr) (place : Place) (index : Nat) (moved : List Thread) (fresh : Bool) :
    List Thread :=
  let none : Waiting := ⟨[], Array.replicate program.size false⟩
  let waiting := moved.foldl (fun waiting thread => enter program place thread waiting) none
  let waiting := if fresh then enter program place ⟨0, index⟩ waiting else waiting
  waiting.threads.reverse

def searchFrom (program : Array Instr) :
    List Char → Option Char → Nat → List Thread → Option (Nat × Nat) → Option (Nat × Nat)
  | chars, before, index, moved, best =>
      let threads := gather program ⟨before, chars.head?⟩ index moved best.isNone
      let (moved, found) := advance program chars.head? threads
      let best := match found with
        | some origin => some (origin, index)
        | none => best
      match chars with
      | [] => best
      | c :: rest =>
          if moved.isEmpty && best.isSome then best
          else searchFrom program rest (some c) (index + 1) moved best

end Pattern

structure Pattern where
  program : Array Pattern.Instr

namespace Pattern

def ofText? (text : String) : Option Pattern :=
  (Expr.ofText? text).map fun expr => ⟨expr.program⟩

/-- The first match: the positions of its first character and of the first one after it. -/
def find? (pattern : Pattern) (text : List Char) : Option (Nat × Nat) :=
  searchFrom pattern.program text none 0 [] none

def isMatch (pattern : Pattern) (text : String) : Bool :=
  (pattern.find? text.toList).isSome

def removeFirst (pattern : Pattern) (text : String) : String :=
  let chars := text.toList
  match pattern.find? chars with
  | some (first, last) => String.ofList (chars.take first ++ chars.drop last)
  | none => text

end Pattern
end ActionAtlas
