import ActionAtlas.Text.Affix

/-!
# Arguments of a command

A command has switches, which start with dashes, and may have one operand or commands below it. The
words of a command line are taken one after the other. A word that waits for its value, or whose value
has not been looked at, is settled when the next word is understood, so that of several faults the one
that is settled first is reported.
-/

namespace ActionAtlas
namespace Arguments

inductive UsageError where
  | helpWanted
  | versionWanted
  | nothingGiven
  | missingCommand
  | unknownCommand
  | unknownArgument
  | missingValue
  | unwantedValue
  | refusedValue
  | conflict
  | missingOperand
  deriving DecidableEq, Repr

abbrev Check := String → Option UsageError

/-- What a switch does: it stands for itself, asks for help or the version, or takes a value. -/
inductive Role where
  | flag
  | help
  | version
  | value (check : Check)

/-- A switch or an operand. An operand has neither spelling. -/
structure Argument where
  name : String
  short : Option Char := none
  long : Option String := none
  role : Role

structure Grammar where
  switches : List Argument
  operand : Option Argument := none
  commands : List String := []

structure State where
  /-- Flags and values by name, in the order in which they were settled. -/
  settled : List (String × String) := []
  /-- What is not settled yet: the argument, its check and its value if that has come. -/
  pending : Option (String × Check × Option String) := none
  /-- Whether the next word is the value of a switch. -/
  awaiting : Bool := false
  /-- Whether two dashes have come, after which every word is an operand. -/
  operandsOnly : Bool := false
  operands : Nat := 0

abbrev Outcome := Except UsageError

namespace State

/-- Enter a flag or value; none may be given twice. -/
def enter (state : State) (name value : String) : Outcome State :=
  if state.settled.any (·.1 == name) then .error .conflict
  else .ok { state with settled := state.settled ++ [(name, value)] }

def enterChecked (state : State) (name : String) (check : Check) (value : String) :
    Outcome State := do
  let state ← state.enter name value
  match check value with
  | some e => .error e
  | none => return state

def settle (state : State) : Outcome State :=
  match state.pending with
  | none => .ok state
  | some (_, _, none) => .error .missingValue
  | some (name, check, some value) =>
      { state with pending := none, awaiting := false }.enterChecked name check value

def takePlain (state : State) (switch : Argument) : Outcome State := do
  let state ← state.settle
  match switch.role with
  | .help => .error .helpWanted
  | .version => .error .versionWanted
  | _ => state.enter switch.name ""

/-- Take a switch with the value that stands in the same word, or wait for the value. -/
def takeValue (state : State) (switch : Argument) (check : Check) (attached : Option String) :
    Outcome State := do
  let state ← state.settle
  match attached with
  | some value => state.enterChecked switch.name check value
  | none => return { state with pending := some (switch.name, check, none), awaiting := true }

end State

namespace Grammar

/-- Take a word that starts with two dashes, given without them. -/
def takeLong (grammar : Grammar) (state : State) (word : List Char) : Outcome State :=
  let name := String.ofList (word.takeWhile (· ≠ '='))
  let attached := match word.dropWhile (· ≠ '=') with
    | [] => none
    | _ :: value => some (String.ofList value)
  match grammar.switches.find? (·.long == some name) with
  | none => .error .unknownArgument
  | some switch =>
      match switch.role, attached with
      | .value check, _ => state.takeValue switch check attached
      | _, some _ => .error .unwantedValue
      | _, none => state.takePlain switch

/-- Take the letters of a word that starts with one dash. What follows a letter that takes a value is
the value, after an equals sign or right away. -/
def takeShort (grammar : Grammar) (state : State) : List Char → Outcome State
  | [] => .ok state
  | c :: rest =>
      match grammar.switches.find? (·.short == some c) with
      | none => .error .unknownArgument
      | some switch =>
          match switch.role with
          | .value check =>
              let attached := match rest with
                | [] => none
                | '=' :: value => some (String.ofList value)
                | value => some (String.ofList value)
              state.takeValue switch check attached
          | _ => do
              let state ← state.takePlain switch
              grammar.takeShort state rest

def takeOperand (grammar : Grammar) (state : State) (word : String) : Outcome State :=
  match grammar.operand with
  | some { name, role := .value check, .. } =>
      if state.operands = 0 then do
        let state ← state.settle
        return { state with pending := some (name, check, some word), operands := 1 }
      else .error .unknownArgument
  | _ =>
      if grammar.commands.isEmpty ∨ (state.operandsOnly ∧ word ∈ grammar.commands) then
        .error .unknownArgument
      else .error .unknownCommand

def take (grammar : Grammar) (state : State) (word : String) : Outcome State :=
  if state.operandsOnly then grammar.takeOperand state word
  else
    match word.toList with
    | ['-', '-'] => .ok { state with operandsOnly := true }
    | '-' :: '-' :: name => do
        let next ← grammar.takeLong { state with awaiting := false } name
        return next
    | '-' :: c :: letters => grammar.takeShort { state with awaiting := false } (c :: letters)
    | _ =>
        match state.awaiting, state.pending with
        | true, some (name, check, _) =>
            .ok { state with pending := some (name, check, some word), awaiting := false }
        | _, _ => grammar.takeOperand state word

/-- Take the words of a command line, up to the name of a command below this one. What is left is that
name and the words behind it. -/
def run (grammar : Grammar) : State → List String → Outcome (State × List String)
  | state, [] => do return (← state.settle, [])
  | state, word :: rest =>
      if !state.operandsOnly && !state.awaiting && grammar.commands.contains word then
        .ok (state, word :: rest)
      else do
        let state ← grammar.take state word
        grammar.run state rest

end Grammar
end Arguments
end ActionAtlas
