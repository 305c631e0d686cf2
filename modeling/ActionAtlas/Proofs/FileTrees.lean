import ActionAtlas.Files.Basic
import ActionAtlas.Proofs.NamedEntries

/-!
# Trees of files by their names

In a tree as file systems have them, the names in a folder are distinct and can stand between the slashes
of a path. There a way of names leads to one place, and the path of that place gives the names back. The
order in which folders list their entries makes no difference to any way.
-/

namespace ActionAtlas

/-! ## Names in paths -/

/-- A text that names something when it stands between the slashes of a path. -/
structure IsFileName (name : String) : Prop where
  nonempty : name ≠ ""
  not_dot : name ≠ "."
  no_slash : '/' ∉ name.toList

theorem names_absolute {place : List String} (h : ∀ name ∈ place, IsFileName name) :
    Path.names (Files.absolute place) = place := by
  by_cases hplace : place = []
  · subst hplace
    decide
  · have hsegments : pathSegments (Files.absolute place) = "" :: place := by
      have hinside := pathSegments_intercalate hplace fun name hname => (h name hname).no_slash
      have hempty : pathSegments "" = [""] := pathSegments_of_slash_notMem (by simp)
      have hfront := pathSegments_append "" ("/".intercalate place)
      rw [hinside, hempty] at hfront
      simpa [Files.absolute, Path.ofNames] using hfront
    have hkept : place.filter (fun name => name ≠ "" ∧ name ≠ ".") = place := by
      refine List.filter_eq_self.mpr ?_
      intro name hname
      simpa using And.intro (h name hname).nonempty (h name hname).not_dot
    rw [Path.names, hsegments]
    simpa using hkept

namespace FileTree

/-! ## Ways of names -/

/-- In every folder the names are distinct and proper. -/
inductive WellNamed : FileTree → Prop where
  | file (content : ByteArray) : WellNamed (.file content)
  | folder {entries : List (String × FileTree)} (distinct : (entries.map (·.1)).Nodup)
      (proper : ∀ entry ∈ entries, IsFileName entry.1)
      (inside : ∀ entry ∈ entries, WellNamed entry.2) : WellNamed (.folder entries)

theorem WellNamed.at? {tree inner : FileTree} (h : tree.WellNamed) {names : List String}
    (hat : tree.at? names = some inner) :
    inner.WellNamed ∧ ∀ name ∈ names, IsFileName name := by
  induction names generalizing tree with
  | nil =>
      cases hat
      exact ⟨h, by simp⟩
  | cons name rest ih =>
      cases h with
      | file content => cases hat
      | @folder entries distinct proper inside =>
          rw [FileTree.at?, Option.bind_eq_some_iff] at hat
          obtain ⟨child, hchild, hrest⟩ := hat
          have hentry := mem_of_lookup hchild
          obtain ⟨hinner, hnames⟩ := ih (inside _ hentry) hrest
          refine ⟨hinner, ?_⟩
          intro other hother
          rcases List.mem_cons.mp hother with rfl | hother
          · exact proper _ hentry
          · exact hnames other hother

/-! ## Other orders of entries -/

/-- The same names in every folder, in any order, and under each name the same again. -/
inductive Reordered : FileTree → FileTree → Prop where
  | file (content : ByteArray) : Reordered (.file content) (.file content)
  | folder {entries others : List (String × FileTree)}
      (names : (entries.map (·.1)).Perm (others.map (·.1)))
      (inside : ∀ name tree other, (name, tree) ∈ entries → (name, other) ∈ others →
        Reordered tree other) : Reordered (.folder entries) (.folder others)

theorem Reordered.symm {tree other : FileTree} (h : tree.Reordered other) : other.Reordered tree := by
  induction h with
  | file content => exact .file content
  | folder names inside ih =>
      exact .folder names.symm fun name tree other htree hother => ih name other tree hother htree

theorem Reordered.wellNamed {tree other : FileTree} (h : tree.Reordered other)
    (wellNamed : tree.WellNamed) : other.WellNamed := by
  induction h with
  | file content => exact wellNamed
  | @folder entries others names inside ih =>
      cases wellNamed with
      | folder distinct proper hinside =>
          have hpartner : ∀ entry ∈ others, ∃ partner, (entry.1, partner) ∈ entries := by
            intro entry hentry
            have hname := names.symm.subset (List.mem_map_of_mem hentry)
            obtain ⟨⟨name, partner⟩, hpartner, rfl⟩ := List.mem_map.mp hname
            exact ⟨partner, hpartner⟩
          refine .folder (names.nodup_iff.mp distinct) ?_ ?_
          · intro entry hentry
            obtain ⟨partner, hpartner⟩ := hpartner entry hentry
            exact proper (entry.1, partner) hpartner
          · intro entry hentry
            obtain ⟨partner, hpartner⟩ := hpartner entry hentry
            exact ih _ _ _ hpartner hentry (hinside _ hpartner)

theorem lookup_reordered {entries others : List (String × FileTree)}
    (names : (entries.map (·.1)).Perm (others.map (·.1)))
    (inside : ∀ name tree other, (name, tree) ∈ entries → (name, other) ∈ others →
      Reordered tree other) (name : String) :
    Option.Rel Reordered (entries.lookup name) (others.lookup name) := by
  have hsome : (entries.lookup name).isSome = (others.lookup name).isSome := by
    rw [Bool.eq_iff_iff, lookup_isSome_iff, lookup_isSome_iff, names.mem_iff]
  cases htree : entries.lookup name with
  | none =>
      cases hother : others.lookup name with
      | none => exact .none
      | some other => simp [htree, hother] at hsome
  | some tree =>
      cases hother : others.lookup name with
      | none => simp [htree, hother] at hsome
      | some other => exact .some (inside _ _ _ (mem_of_lookup htree) (mem_of_lookup hother))

theorem Reordered.at? {tree other : FileTree} (h : tree.Reordered other) (names : List String) :
    Option.Rel Reordered (tree.at? names) (other.at? names) := by
  induction names generalizing tree other with
  | nil => exact .some h
  | cons name rest ih =>
      cases h with
      | file content => exact .none
      | @folder entries others names inside =>
          have hchild := lookup_reordered names inside name
          rw [FileTree.at?, FileTree.at?]
          generalize entries.lookup name = child at hchild ⊢
          generalize others.lookup name = partner at hchild ⊢
          cases hchild with
          | none => exact .none
          | some hsame => exact ih hsame

end FileTree

namespace Files

theorem step_reordered {files : Files} {root : FileTree} (h : files.root.Reordered root)
    (place : List String) (segment : String) :
    ({ files with root := root } : Files).step place segment = files.step place segment := by
  have hthere := h.at? place
  simp only [step]
  generalize files.root.at? place = there at hthere ⊢
  generalize root.at? place = partner at hthere ⊢
  cases hthere with
  | none => rfl
  | some hsame =>
      cases hsame with
      | file content => rfl
      | @folder entries others names inside =>
          have hsome : ∀ name, (others.lookup name).isSome = (entries.lookup name).isSome := by
            intro name
            rw [Bool.eq_iff_iff, lookup_isSome_iff, lookup_isSome_iff,
              names.mem_iff]
          simp only [hsome]

theorem locate_reordered {files : Files} {root : FileTree} (h : files.root.Reordered root)
    (path : String) : ({ files with root := root } : Files).locate path = files.locate path := by
  have hstep : ({ files with root := root } : Files).step = files.step := by
    funext place segment
    exact step_reordered h place segment
  rw [locate, locate, hstep]
  rfl

end Files
end ActionAtlas
