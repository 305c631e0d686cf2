import ActionAtlas.Text.Category

/-!
# Quoted text in messages

A text inside a message is put between double quotes. Quotes, backslashes and everything that does not
show on its own are escaped.
-/

namespace ActionAtlas
namespace Quoted

/-- A character that shows: not a control, a format character, a blank other than the space, or a
code point without a character. -/
def isPrintable (c : Char) : Bool :=
  c == ' ' ||
    match categoryOf c with
    | .control | .format | .surrogate | .privateUse | .unassigned | .space | .lineSeparator
    | .paragraphSeparator => false
    | _ => true

def joinsPrevious (c : Char) : Bool :=
  match categoryOf c with
  | .plainMark | .enclosingMark => true
  | _ => false

def escape (c : Char) : List Char :=
  match c with
  | '"' => ['\\', '"']
  | '\\' => ['\\', '\\']
  | '\n' => ['\\', 'n']
  | '\r' => ['\\', 'r']
  | '\t' => ['\\', 't']
  | _ =>
      if c.toNat = 0 then ['\\', '0']
      else if isPrintable c && !joinsPrevious c then [c]
      else '\\' :: 'u' :: '\x7b' :: Nat.toDigits 16 c.toNat ++ ['\x7d']

def quote (text : String) : String :=
  String.ofList ('"' :: text.toList.flatMap escape ++ ['"'])

end Quoted
end ActionAtlas
