import ActionAtlas.Graph.Build

/-!
# Tails of paths

A reducer is called by the last segments of its path. These are a piece of the path as it is written:
whatever slashes stand in it, at its ends or next to each other, the name is what follows one of them,
found by counting from the right. So a name can be shortened further without a look at the path.
-/

namespace ActionAtlas

/-! ## Segments of a name -/

section

variable (path : String)

theorem reducerDisplayName_eq_intercalate (depth : Nat) :
    reducerDisplayName path depth =
      "/".intercalate ((pathSegments path).drop ((pathSegments path).length - depth)) := by
  have hlength : (pathSegments path).length = (Segments.split '/' path.toList).length := by
    rw [pathSegments, List.length_map]
  apply String.toList_inj.mp
  rw [String.toList_intercalate, List.map_drop, map_toList_pathSegments, hlength]
  rw [reducerDisplayName, String.toList_ofList, Segments.lastPieces, Segments.join_eq_intercalate]
  rfl

theorem reducerDisplayName_zero : reducerDisplayName path 0 = "" := by
  rw [reducerDisplayName_eq_intercalate, Nat.sub_zero, List.drop_length, String.intercalate_nil]

variable {path} {depth : Nat}

theorem reducerDisplayName_of_length_le (h : (pathSegments path).length ≤ depth) :
    reducerDisplayName path depth = path := by
  rw [reducerDisplayName_eq_intercalate, Nat.sub_eq_zero_of_le h, List.drop_zero,
    intercalate_pathSegments]

theorem lastSegments_ne_nil (h : 0 < depth) :
    (pathSegments path).drop ((pathSegments path).length - depth) ≠ [] := by
  have hsome : 0 < (pathSegments path).length :=
    List.length_pos_iff.mpr (pathSegments_ne_nil path)
  rw [Ne, List.drop_eq_nil_iff]
  omega

theorem firstSegments_ne_nil (h : depth < (pathSegments path).length) :
    (pathSegments path).take ((pathSegments path).length - depth) ≠ [] := by
  intro hnil
  have hlength := congrArg List.length hnil
  rw [List.length_take, List.length_nil] at hlength
  omega

/-- A name has the segments that it is joined from, the empty ones too. For the depth zero it has not:
it is joined from no segment, and the empty text has one. -/
theorem pathSegments_reducerDisplayName (h : 0 < depth) :
    pathSegments (reducerDisplayName path depth) =
      (pathSegments path).drop ((pathSegments path).length - depth) := by
  rw [reducerDisplayName_eq_intercalate]
  apply pathSegments_intercalate (lastSegments_ne_nil h)
  intro segment hsegment
  exact slash_notMem_of_mem_pathSegments (List.mem_of_mem_drop hsegment)

theorem length_pathSegments_reducerDisplayName (h : 0 < depth) :
    (pathSegments (reducerDisplayName path depth)).length =
      min depth (pathSegments path).length := by
  rw [pathSegments_reducerDisplayName h, List.length_drop]
  omega

end

/-! ## Names of names -/

theorem reducerDisplayName_empty (depth : Nat) : reducerDisplayName "" depth = "" := by
  by_cases hzero : depth = 0
  · rw [hzero, reducerDisplayName_zero]
  · have hone : (pathSegments "").length = 1 := length_pathSegments ""
    apply reducerDisplayName_of_length_le
    omega

theorem reducerDisplayName_reducerDisplayName (path : String) (depth again : Nat) :
    reducerDisplayName (reducerDisplayName path depth) again =
      reducerDisplayName path (min depth again) := by
  -- the depth zero goes apart: the name it gives has a segment that no path gave it
  by_cases hzero : depth = 0
  · rw [hzero, Nat.zero_min, reducerDisplayName_zero, reducerDisplayName_empty]
  · have hpos : 0 < depth := Nat.pos_of_ne_zero hzero
    have hlength : (pathSegments (reducerDisplayName path depth)).length =
        min depth (pathSegments path).length :=
      length_pathSegments_reducerDisplayName hpos
    have hdropped : (pathSegments path).length - depth +
        (min depth (pathSegments path).length - again) =
          (pathSegments path).length - min depth again := by
      omega
    rw [reducerDisplayName_eq_intercalate, hlength, pathSegments_reducerDisplayName hpos,
      List.drop_drop, hdropped, ← reducerDisplayName_eq_intercalate]

/-! ## Slashes from the right -/

/-- What follows the `nth` slash of a path, counted from its right end: a slash stands before it, and
all those further right are in it. -/
def FollowsSlash (path : String) (nth : Nat) (tail : String) : Prop :=
  '/' :: tail.toList <:+ path.toList ∧ tail.toList.count '/' + 1 = nth

instance (path : String) (nth : Nat) (tail : String) : Decidable (FollowsSlash path nth tail) :=
  inferInstanceAs (Decidable (_ ∧ _))

theorem slash_suffix_iff {path tail : String} :
    '/' :: tail.toList <:+ path.toList ↔ ∃ front, path = front ++ "/" ++ tail := by
  constructor
  · intro hsuffix
    obtain ⟨front, hfront⟩ := hsuffix
    exists String.ofList front
    apply String.toList_inj.mp
    simp [← hfront]
  · intro hpath
    obtain ⟨front, rfl⟩ := hpath
    exists front.toList
    simp

theorem reducerDisplayName_append (front tail : String) :
    reducerDisplayName (front ++ "/" ++ tail) (pathSegments tail).length = tail := by
  have hfront : (pathSegments front).length =
      (pathSegments front ++ pathSegments tail).length - (pathSegments tail).length := by
    rw [List.length_append]
    omega
  rw [reducerDisplayName_eq_intercalate, pathSegments_append, List.drop_left' hfront,
    intercalate_pathSegments]

theorem exists_append_reducerDisplayName {path : String} {depth : Nat} (hpos : 0 < depth)
    (h : depth < (pathSegments path).length) :
    ∃ front, path = front ++ "/" ++ reducerDisplayName path depth := by
  have hfront : (pathSegments path).take ((pathSegments path).length - depth) ≠ [] :=
    firstSegments_ne_nil h
  have hlast : (pathSegments path).drop ((pathSegments path).length - depth) ≠ [] :=
    lastSegments_ne_nil hpos
  exists "/".intercalate ((pathSegments path).take ((pathSegments path).length - depth))
  rw [reducerDisplayName_eq_intercalate, ← String.intercalate_append_of_ne_nil hfront hlast,
    List.take_append_drop, intercalate_pathSegments]

/-- There are as many slashes to count as segments but one, and each of them has a name behind it. -/
theorem followsSlash_iff {path tail : String} {nth : Nat} :
    FollowsSlash path nth tail ↔
      0 < nth ∧ nth < (pathSegments path).length ∧ reducerDisplayName path nth = tail := by
  rw [FollowsSlash, slash_suffix_iff, ← length_pathSegments]
  constructor
  · intro hfollows
    obtain ⟨⟨front, rfl⟩, rfl⟩ := hfollows
    -- the front has a segment of its own, so the tail does not have them all
    have hfront : (pathSegments front).length = front.toList.count '/' + 1 :=
      length_pathSegments front
    have htail : (pathSegments tail).length = tail.toList.count '/' + 1 :=
      length_pathSegments tail
    have hpath : (pathSegments (front ++ "/" ++ tail)).length =
        (pathSegments front).length + (pathSegments tail).length := by
      rw [pathSegments_append, List.length_append]
    exact ⟨by omega, by omega, reducerDisplayName_append front tail⟩
  · intro hname
    obtain ⟨hpos, hlt, rfl⟩ := hname
    have hlength : (pathSegments (reducerDisplayName path nth)).length =
        min nth (pathSegments path).length :=
      length_pathSegments_reducerDisplayName hpos
    exact ⟨exists_append_reducerDisplayName hpos hlt, by omega⟩

/-- The name of a reducer for a depth is its whole path where this has no more segments, nothing for
the depth zero, and otherwise what follows the slash that comes at the depth from the right. So it has
as many segments as are asked for and there are, and names for two depths one after the other are the
name for the smaller one. -/
theorem reducerDisplayName_is_tail (path : String) (depth again : Nat) :
    (pathSegments path).length = path.toList.count '/' + 1 ∧
    ((pathSegments path).length ≤ depth → reducerDisplayName path depth = path) ∧
    reducerDisplayName path 0 = "" ∧
    (0 < depth → depth < (pathSegments path).length →
      ∀ tail, reducerDisplayName path depth = tail ↔ FollowsSlash path depth tail) ∧
    (0 < depth → (pathSegments (reducerDisplayName path depth)).length =
      min depth (pathSegments path).length) ∧
    reducerDisplayName (reducerDisplayName path depth) again =
      reducerDisplayName path (min depth again) := by
  have htail : 0 < depth → depth < (pathSegments path).length →
      ∀ tail, reducerDisplayName path depth = tail ↔ FollowsSlash path depth tail := by
    intro hpos hlt tail
    rw [followsSlash_iff]
    simp [hpos, hlt]
  exact ⟨length_pathSegments path, reducerDisplayName_of_length_le, reducerDisplayName_zero path,
    htail, length_pathSegments_reducerDisplayName,
    reducerDisplayName_reducerDisplayName path depth again⟩

example : reducerDisplayName "/a//b/" 3 = "/b/" ∧ FollowsSlash "/a//b/" 3 "/b/" := by
  decide

end ActionAtlas
