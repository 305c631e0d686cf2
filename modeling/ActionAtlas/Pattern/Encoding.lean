import ActionAtlas.Pattern.CharSet

/-!
# Sets of characters in bytes

The stretches of code points that a set consists of, and the ranges of bytes that write them.
-/

namespace ActionAtlas.Pattern

/-- A range of bytes for each byte of the characters that are written so. -/
abbrev Bytes := List (Nat × Nat)

namespace Bytes

/-- The code points that are written in one number of bytes: how many bytes follow the first one, and
what marks the first one. -/
structure Width where
  first : Nat
  last : Nat
  more : Nat
  mark : Nat

def widths : List Width :=
  [⟨0, 0x7F, 0, 0⟩, ⟨0x80, 0x7FF, 1, 0xC0⟩, ⟨0x800, 0xD7FF, 2, 0xE0⟩, ⟨0xE000, 0xFFFF, 2, 0xE0⟩,
    ⟨0x10000, 0x10FFFF, 3, 0xF0⟩]

/-- Write a stretch of numbers as one byte with a mark and so many further bytes of six bits each. Every
result stands for all combinations of its bytes. -/
def write (mark : Nat) : Nat → Nat → Nat → List Bytes
  | 0, first, last => [[(mark + first, mark + last)]]
  | more + 1, first, last =>
      let unit := Nat.pow 64 (more + 1)
      let under (start upto low high : Nat) : List Bytes :=
        (write 0x80 more low high).map ((mark + start, mark + upto) :: ·)
      let low := first % unit
      let high := last % unit
      if first / unit = last / unit then under (first / unit) (last / unit) low high
      else
        let whole := if low = 0 then first / unit else first / unit + 1
        let after := if high + 1 = unit then last / unit + 1 else last / unit
        (if low = 0 then [] else under (first / unit) (first / unit) low (unit - 1)) ++
          (if whole < after then under whole (after - 1) 0 (unit - 1) else []) ++
          (if high + 1 = unit then [] else under (last / unit) (last / unit) 0 high)

def ofStretch (stretch : Nat × Nat) : List Bytes :=
  widths.flatMap fun width =>
    let first := max stretch.1 width.first
    let last := min stretch.2 width.last
    if first ≤ last then write width.mark width.more first last else []

end Bytes

namespace CharSet

def cased : List Nat :=
  CaseFold.runs.flatMap fun run =>
    (List.range run.count).flatMap fun index =>
      let point := run.first + index * run.step
      [point, CaseFold.fold point]

/-- The code points before which a set may begin or end. -/
def changes : CharSet → List Nat
  | .all => []
  | .range first last => [first, last + 1]
  | .table ranges => ranges.flatMap fun (first, last) => [first, last + 1]
  | .categories _ => Category.table.toList.map (·.1)
  | .blank => blankRanges.flatMap fun (first, last) => [first, last + 1]
  | .union left right | .meet left right => left.changes ++ right.changes
  | .complement set => set.changes
  | .folded set =>
      set.changes ++
        ((cased.filter set.holds).flatMap CaseFold.orbit).flatMap fun point => [point, point + 1]

/-- Put a stretch before others, as one with the next where they touch. -/
def join (first last : Nat) : List (Nat × Nat) → List (Nat × Nat)
  | [] => [(first, last)]
  | (start, stop) :: rest =>
      if start = last + 1 then (first, stop) :: rest else (first, last) :: (start, stop) :: rest

def between (set : CharSet) : List Nat → List (Nat × Nat)
  | first :: next :: rest =>
      let found := between set (next :: rest)
      if first < next && set.holds first then join first (next - 1) found else found
  | _ => []

def stretches (set : CharSet) : List (Nat × Nat) :=
  between set ((0 :: 0x110000 :: set.changes).mergeSort)

def bytes (set : CharSet) : List Bytes := set.stretches.flatMap Bytes.ofStretch

end CharSet
end ActionAtlas.Pattern
