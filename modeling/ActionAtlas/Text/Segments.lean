/-!
# Segments of a text

A text is cut at every occurrence of a separator character. The cut never loses anything: joining the
segments with the same separator gives the text back, and a text without the separator is its own
only segment.
-/

namespace ActionAtlas
namespace Segments

/-- The pieces between separators; a text always has at least one piece. -/
def split (sep : Char) : List Char → List (List Char)
  | [] => [[]]
  | c :: rest =>
      if c = sep then [] :: split sep rest
      else
        match split sep rest with
        | [] => [[c]]
        | piece :: pieces => (c :: piece) :: pieces

def join (sep : Char) : List (List Char) → List Char
  | [] => []
  | [piece] => piece
  | piece :: next :: pieces => piece ++ sep :: join sep (next :: pieces)

theorem split_ne_nil (sep : Char) (text : List Char) : split sep text ≠ [] := by
  cases text with
  | nil => simp [split]
  | cons c rest =>
      unfold split
      split
      · simp
      · split <;> simp

theorem join_split (sep : Char) (text : List Char) : join sep (split sep text) = text := by
  induction text with
  | nil => rfl
  | cons c rest ih =>
      unfold split
      split
      case isTrue h =>
        subst h
        cases hs : split c rest with
        | nil => exact absurd hs (split_ne_nil c rest)
        | cons piece pieces =>
            rw [hs] at ih
            simp [join, ih]
      case isFalse h =>
        cases hs : split sep rest with
        | nil => exact absurd hs (split_ne_nil sep rest)
        | cons piece pieces =>
            rw [hs] at ih
            cases pieces with
            | nil => simpa [join] using ih
            | cons next more => simpa [join] using ih

theorem mem_of_mem_split {sep c : Char} {text piece : List Char} (hpiece : piece ∈ split sep text)
    (hc : c ∈ piece) : c ∈ text := by
  induction text generalizing piece with
  | nil =>
      rw [split, List.mem_singleton] at hpiece
      rwa [hpiece] at hc
  | cons first rest ih =>
      unfold split at hpiece
      split at hpiece
      case isTrue =>
        rcases List.mem_cons.mp hpiece with rfl | hpiece
        · cases hc
        · exact List.mem_cons_of_mem _ (ih hpiece hc)
      case isFalse =>
        cases hs : split sep rest with
        | nil => exact absurd hs (split_ne_nil sep rest)
        | cons next pieces =>
            rw [hs] at hpiece ih
            rcases List.mem_cons.mp hpiece with rfl | hpiece
            · rcases List.mem_cons.mp hc with rfl | hc
              · exact List.mem_cons_self
              · exact List.mem_cons_of_mem _ (ih List.mem_cons_self hc)
            · exact List.mem_cons_of_mem _ (ih (List.mem_cons_of_mem _ hpiece) hc)

theorem sep_notMem_of_mem_split {sep : Char} {text piece : List Char}
    (h : piece ∈ split sep text) : sep ∉ piece := by
  induction text generalizing piece with
  | nil =>
      rw [split, List.mem_singleton] at h
      simp [h]
  | cons c rest ih =>
      unfold split at h
      split at h
      case isTrue =>
        rcases List.mem_cons.mp h with rfl | h
        · simp
        · exact ih h
      case isFalse hc =>
        cases hs : split sep rest with
        | nil => exact absurd hs (split_ne_nil sep rest)
        | cons next pieces =>
            rw [hs] at h ih
            rcases List.mem_cons.mp h with rfl | h
            · rw [List.mem_cons, not_or]
              exact ⟨Ne.symm hc, ih List.mem_cons_self⟩
            · exact ih (List.mem_cons_of_mem _ h)

theorem split_of_sep_notMem {sep : Char} {text : List Char} (h : sep ∉ text) :
    split sep text = [text] := by
  induction text with
  | nil => rfl
  | cons c rest ih =>
      rw [List.mem_cons, not_or] at h
      rw [split, if_neg (Ne.symm h.1), ih h.2]

theorem split_append_sep (sep : Char) (front back : List Char) :
    split sep (front ++ sep :: back) = split sep front ++ split sep back := by
  induction front with
  | nil => simp [split]
  | cons c rest ih =>
      rw [List.cons_append, split, split, ih]
      split
      case isTrue => rfl
      case isFalse =>
        cases hs : split sep rest with
        | nil => exact absurd hs (split_ne_nil sep rest)
        | cons piece pieces => rfl

/-- There is one piece more than there are separators. -/
theorem length_split (sep : Char) (text : List Char) :
    (split sep text).length = text.count sep + 1 := by
  induction text with
  | nil => rfl
  | cons c rest ih =>
      unfold split
      split
      case isTrue h =>
        simp [h, ih]
      case isFalse h =>
        cases hs : split sep rest with
        | nil => exact absurd hs (split_ne_nil sep rest)
        | cons piece pieces =>
            rw [hs] at ih
            simpa [List.count_cons_of_ne h] using ih

theorem join_eq_intercalate (sep : Char) (pieces : List (List Char)) :
    join sep pieces = [sep].intercalate pieces := by
  fun_induction join sep pieces with
  | case1 => rfl
  | case2 piece => simp
  | case3 piece next pieces ih => simp [ih]

theorem length_join_le_append (sep : Char) (front back : List (List Char)) :
    (join sep front).length ≤ (join sep (front ++ back)).length := by
  fun_induction join sep front with
  | case1 => exact Nat.zero_le _
  | case2 piece =>
      cases back with
      | nil => simp [join]
      | cons next pieces => simp [join]
  | case3 piece next pieces ih =>
      simp only [List.cons_append, join, List.length_append, List.length_cons] at ih ⊢
      omega

theorem length_le_of_split_prefix {sep : Char} {text other : List Char}
    (h : split sep text <+: split sep other) : text.length ≤ other.length := by
  obtain ⟨rest, hrest⟩ := h
  have hjoin := length_join_le_append sep (split sep text) rest
  rwa [hrest, join_split, join_split] at hjoin

/-- The last `count` pieces of a text, joined again; all of it when there are no more pieces. -/
def lastPieces (sep : Char) (count : Nat) (text : List Char) : List Char :=
  let pieces := split sep text
  join sep (pieces.drop (pieces.length - count))

end Segments

def pathSegments (path : String) : List String :=
  (Segments.split '/' path.toList).map String.ofList

theorem pathSegments_ne_nil (path : String) : pathSegments path ≠ [] := by
  intro h
  exact Segments.split_ne_nil '/' path.toList (List.map_eq_nil_iff.mp h)

theorem pathSegments_append (front back : String) :
    pathSegments (front ++ "/" ++ back) = pathSegments front ++ pathSegments back := by
  have htext : (front ++ "/" ++ back).toList = front.toList ++ '/' :: back.toList := by
    simp
  rw [pathSegments, htext, Segments.split_append_sep, List.map_append, pathSegments, pathSegments]

theorem pathSegments_of_slash_notMem {path : String} (h : '/' ∉ path.toList) :
    pathSegments path = [path] := by
  rw [pathSegments, Segments.split_of_sep_notMem h, List.map_singleton, String.ofList_toList]

theorem slash_notMem_of_mem_pathSegments {path segment : String} (h : segment ∈ pathSegments path) :
    '/' ∉ segment.toList := by
  obtain ⟨piece, hpiece, rfl⟩ := List.mem_map.mp h
  rw [String.toList_ofList]
  exact Segments.sep_notMem_of_mem_split hpiece

theorem map_toList_pathSegments (path : String) :
    (pathSegments path).map String.toList = Segments.split '/' path.toList := by
  have hround : String.toList ∘ String.ofList = id := by
    funext piece
    exact String.toList_ofList
  rw [pathSegments, List.map_map, hround, List.map_id]

theorem length_pathSegments (path : String) :
    (pathSegments path).length = path.toList.count '/' + 1 := by
  rw [pathSegments, List.length_map, Segments.length_split]

theorem intercalate_pathSegments (path : String) : "/".intercalate (pathSegments path) = path := by
  have hjoin : ['/'].intercalate (Segments.split '/' path.toList) = path.toList := by
    rw [← Segments.join_eq_intercalate, Segments.join_split]
  apply String.toList_inj.mp
  rw [String.toList_intercalate, map_toList_pathSegments]
  exact hjoin

theorem pathSegments_intercalate {names : List String} (hnames : names ≠ [])
    (h : ∀ name ∈ names, '/' ∉ name.toList) : pathSegments ("/".intercalate names) = names := by
  induction names with
  | nil => exact absurd rfl hnames
  | cons name rest ih =>
      have hname : pathSegments name = [name] :=
        pathSegments_of_slash_notMem (h name List.mem_cons_self)
      cases rest with
      | nil => simpa using hname
      | cons next more =>
          have hrest : pathSegments ("/".intercalate (next :: more)) = next :: more :=
            ih (by simp) fun other hother => h other (List.mem_cons_of_mem _ hother)
          rw [String.intercalate_cons_cons, pathSegments_append, hname, hrest]
          rfl

theorem length_le_of_pathSegments_prefix {path below : String}
    (h : pathSegments path <+: pathSegments below) : path.length ≤ below.length := by
  have hpieces := h.map String.toList
  rw [map_toList_pathSegments, map_toList_pathSegments] at hpieces
  have hlength := Segments.length_le_of_split_prefix hpieces
  rwa [String.length_toList, String.length_toList] at hlength

end ActionAtlas
