/-!
# Beginnings and parts of texts
-/

namespace ActionAtlas

def dropStart? : List Char → List Char → Option (List Char)
  | [], text => some text
  | _ :: _, [] => none
  | a :: start, b :: text => if a = b then dropStart? start text else none

def occursIn (part : List Char) : List Char → Bool
  | [] => part.isEmpty
  | c :: rest => (dropStart? part (c :: rest)).isSome || occursIn part rest

def dropFirst (c : Char) : Nat → List Char → List Char
  | 0, text => text
  | _, [] => []
  | count + 1, d :: rest =>
      if d = c then dropFirst c count rest else d :: dropFirst c (count + 1) rest

def replaceChar (old new : Char) (text : List Char) : List Char :=
  text.map fun c => if c = old then new else c

theorem dropStart?_eq_some_iff {start text rest : List Char} :
    dropStart? start text = some rest ↔ text = start ++ rest := by
  induction start generalizing text with
  | nil => simp [dropStart?, eq_comm]
  | cons a start ih =>
      cases text with
      | nil => simp [dropStart?]
      | cons b text =>
          by_cases h : a = b
          · simp [dropStart?, h, ih]
          · simp [dropStart?, h, Ne.symm h]

theorem dropStart?_isSome_iff {start text : List Char} :
    (dropStart? start text).isSome = true ↔ start <+: text := by
  rw [Option.isSome_iff_exists]
  simp only [dropStart?_eq_some_iff]
  exact exists_congr fun _ => eq_comm

theorem occursIn_iff_infix {part text : List Char} : occursIn part text = true ↔ part <:+: text := by
  induction text with
  | nil => simp [occursIn]
  | cons c rest ih => rw [occursIn, Bool.or_eq_true, dropStart?_isSome_iff, ih, List.infix_cons_iff]

end ActionAtlas
