/-!
# Status messages

Lines that tell how a command went. A mark before each tells its weight; on a terminal both may be
coloured.
-/

namespace ActionAtlas

inductive Weight where
  | success
  | info
  | warning
  deriving DecidableEq, Repr

namespace Weight

def mark : Weight → String
  | .success => "✓"
  | .info => "ℹ"
  | .warning => "⚠"

def colour : Weight → String
  | .success => "32"
  | .info => "34"
  | .warning => "33"

end Weight

def coloured (codes : List String) (text : String) : String :=
  String.join (codes.map fun code => "\x1b[" ++ code ++ "m") ++ text ++ "\x1b[0m"

/-- A status message as a line. Only a warning has its text coloured too. -/
def statusLine (withColours : Bool) (weight : Weight) (message : String) : String :=
  if withColours then
    let text := if weight = .warning then coloured [weight.colour] message else message
    coloured [weight.colour, "1"] weight.mark ++ " " ++ text ++ "\n"
  else weight.mark ++ " " ++ message ++ "\n"

/-- Whether messages are coloured: one variable forbids it, another one demands it, and otherwise it
depends on whether a terminal shows them. -/
def wantsColours (environment : List (String × String)) (terminal : Bool) : Bool :=
  if (environment.lookup "NO_COLOR").isSome then false
  else if (environment.lookup "FORCE_COLOR").isSome then true
  else terminal

end ActionAtlas
