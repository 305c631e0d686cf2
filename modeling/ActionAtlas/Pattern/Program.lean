import ActionAtlas.Pattern.Basic

/-!
# Programs of patterns

A pattern as a list of instructions. Where two ways are open, the first one is preferred.
-/

namespace ActionAtlas.Pattern

inductive Instr where
  | take (members : CharSet)
  | need (condition : Look)
  | fork (first second : Nat)
  | jump (target : Nat)
  | accept

/-- A fork that prefers to go on or prefers to leave. -/
def Instr.forkBy (greedy : Bool) (on off : Nat) : Instr :=
  if greedy then .fork on off else .fork off on

def writeTimes (body : Array Instr → Array Instr) : Nat → Array Instr → Array Instr
  | 0, code => code
  | count + 1, code => writeTimes body count (body code)

/-- Write code that may be left before each of so many rounds. -/
def writeOptional (greedy : Bool) (body : Array Instr → Array Instr) : Nat → Array Instr → Array Instr
  | 0, code => code
  | count + 1, code =>
      let fork := code.size
      let code := writeOptional greedy body count (body (code.push .accept))
      code.set! fork (.forkBy greedy (fork + 1) code.size)

def writeMany (greedy : Bool) (body : Array Instr → Array Instr) (code : Array Instr) : Array Instr :=
  let first := code.size
  let code := body code
  code.push (.forkBy greedy first (code.size + 1))

/-- Write code for any number of rounds, each of which takes something. -/
def writeLoop (greedy : Bool) (body : Array Instr → Array Instr) (code : Array Instr) : Array Instr :=
  let fork := code.size
  let code := (body (code.push .accept)).push (.jump fork)
  code.set! fork (.forkBy greedy (fork + 1) code.size)

namespace Expr

mutual

def write : Expr → Array Instr → Array Instr
  | .empty, code => code
  | .set members, code => code.push (.take members)
  | .look condition, code => code.push (.need condition)
  | .sequence parts, code => writeAll parts code
  | .choice options, code => writeChoice options code
  | .group _ inner, code => inner.write code
  | .loop least (some most) greedy inner, code =>
      writeOptional greedy inner.write (most - least) (writeTimes inner.write least code)
  | .loop 0 none greedy inner, code =>
      if inner.isNullable then writeOptional greedy (writeMany greedy inner.write) 1 code
      else writeLoop greedy inner.write code
  | .loop (least + 1) none greedy inner, code =>
      writeMany greedy inner.write (writeTimes inner.write least code)

def writeAll : List Expr → Array Instr → Array Instr
  | [], code => code
  | part :: rest, code => writeAll rest (part.write code)

def writeChoice : List Expr → Array Instr → Array Instr
  | [], code => code
  | [option], code => option.write code
  | option :: rest, code =>
      let fork := code.size
      let code := option.write (code.push .accept)
      let jump := code.size
      let code := writeChoice rest (code.push .accept)
      (code.set! fork (.fork (fork + 1) (jump + 1))).set! jump (.jump code.size)

end

def program (expr : Expr) : Array Instr := (expr.write #[]).push .accept

end Expr
end ActionAtlas.Pattern
