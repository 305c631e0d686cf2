import ActionAtlas.Syntax.Tree

/-!
# Tokens

The smallest parts that a source is made of. Keywords are words: whether a word is one depends on where
it stands.
-/

namespace ActionAtlas.TypeScript

open Syntax (Span)

inductive Mark where
  | parenOpen
  | parenClose
  | bracketOpen
  | bracketClose
  | braceOpen
  | braceClose
  | semicolon
  | comma
  | dot
  | ellipsis
  | question
  | questionDot
  | colon
  | arrow
  | at
  | equals
  | less
  | greater
  | bang
  | tilde
  | plus
  | minus
  | plusPlus
  | minusMinus
  | star
  | slash
  | slashEquals
  | pipe
  | ampersand
  | shiftLeft
  deriving DecidableEq, Repr

inductive Rank where
  | coalesce
  | disjunction
  | conjunction
  | bitOr
  | bitXor
  | bitAnd
  | equality
  | relation
  | shift
  | sum
  | product
  | power
  deriving DecidableEq, Repr

def Rank.strength : Rank → Nat
  | .coalesce => 1
  | .disjunction => 2
  | .conjunction => 3
  | .bitOr => 4
  | .bitXor => 5
  | .bitAnd => 6
  | .equality => 7
  | .relation => 8
  | .shift => 9
  | .sum => 10
  | .product => 11
  | .power => 12

/-- A token. A word keeps its name without escapes and whether it had any; a text literal keeps the
value it stands for; a piece of a template keeps whether it is the last one and whether its escapes
stand for characters. -/
inductive Token where
  | word (name : String) (escaped : Bool)
  | privateName (name : String)
  | number
  | text (value : String)
  | template (last sound : Bool)
  | pattern
  | mark (mark : Mark)
  | operator (rank : Rank)
  | update
  | finish
  deriving DecidableEq, Repr

/-- A token where it stands: its span, whether a line ended before it, and what follows it. -/
structure Lexeme where
  token : Token
  span : Span
  broken : Bool
  rest : List Char

def reservedWords : List String :=
  ["break", "case", "catch", "class", "const", "continue", "debugger", "default", "delete", "do", "else",
    "enum", "export", "extends", "false", "finally", "for", "function", "if", "import", "in",
    "instanceof", "new", "null", "return", "super", "switch", "this", "throw", "true", "try", "typeof",
    "var", "void", "while", "with"]

def isReserved (word : String) : Bool := reservedWords.contains word

namespace Lexeme

def isMark (lexeme : Lexeme) (mark : Mark) : Bool := lexeme.token == .mark mark

/-- Whether a token is the given word, written without escapes. -/
def isWord (lexeme : Lexeme) (word : String) : Bool := lexeme.token == .word word false

def anyWord (lexeme : Lexeme) : Bool :=
  match lexeme.token with
  | .word _ _ => true
  | _ => false

def isName (lexeme : Lexeme) : Bool :=
  match lexeme.token with
  | .word name _ => !isReserved name
  | _ => false

def isKey (lexeme : Lexeme) : Bool :=
  match lexeme.token with
  | .word _ _ | .text _ | .number | .privateName _ | .mark .bracketOpen => true
  | _ => false

end Lexeme
end ActionAtlas.TypeScript
