import ActionAtlas.Files.Sources
import ActionAtlas.Proofs.FileTrees

/-!
# The listing of source files

Going through a tree in the order of names, folder by folder, lists the files in the lexicographic order of
the names that lead to them, since files below one entry share their first name. The listing is told
without the walk: by the file at the end of a way, its name, and the names of the folders on the way.
-/

namespace ActionAtlas

/-! ## Names of source files and of folders passed over -/

theorem extension?_of_no_dot {name : String} (h : '.' ∉ name.toList) : Path.extension? name = none := by
  simp [Path.extension?, Segments.split_of_sep_notMem h]

theorem extension?_of_last_dot {stem last : String} (h : '.' ∉ last.toList) :
    Path.extension? (stem ++ "." ++ last) = if stem = "" then none else some last := by
  have hpieces : Segments.split '.' (stem ++ "." ++ last).toList =
      Segments.split '.' stem.toList ++ [last.toList] := by
    have htext : (stem ++ "." ++ last).toList = stem.toList ++ '.' :: last.toList := by simp
    rw [htext, Segments.split_append_sep, Segments.split_of_sep_notMem h]
  have hsome : (Segments.split '.' stem.toList).length ≠ 0 := by
    simpa using Segments.split_ne_nil '.' stem.toList
  -- a stem is cut into one empty piece exactly when it is empty
  have hempty : (Segments.split '.' stem.toList).reverse = [[]] ↔ stem = "" := by
    constructor
    · intro hpiece
      have hone : Segments.split '.' stem.toList = [[]] := by
        simpa using congrArg List.reverse hpiece
      have hjoined := Segments.join_split '.' stem.toList
      rw [hone, Segments.join] at hjoined
      simpa using hjoined.symm
    · rintro rfl
      rfl
  rw [Path.extension?, hpieces]
  simp [hsome, hempty]

theorem exists_last_dot {name : String} (h : '.' ∈ name.toList) :
    ∃ stem last, name = stem ++ "." ++ last ∧ '.' ∉ last.toList := by
  obtain ⟨after, before, hparts, hlast⟩ := List.eq_append_cons_of_mem (List.mem_reverse.mpr h)
  refine ⟨String.ofList before.reverse, String.ofList after.reverse, ?_, by simpa using hlast⟩
  apply String.toList_inj.mp
  simpa using congrArg List.reverse hparts

/-- A source file has a name that ends in `.ts` after something. -/
theorem isSourceName_iff {name : String} :
    isSourceName name = true ↔ ∃ stem, stem ≠ "" ∧ name = stem ++ ".ts" := by
  have hjoined : ∀ stem : String, stem ++ "." ++ "ts" = stem ++ ".ts" := by
    intro stem
    rw [String.append_assoc]
    rfl
  rw [isSourceName, decide_eq_true_iff]
  constructor
  · intro hextension
    by_cases hdot : '.' ∈ name.toList
    · obtain ⟨stem, last, rfl, hlast⟩ := exists_last_dot hdot
      rw [extension?_of_last_dot hlast] at hextension
      by_cases hstem : stem = ""
      · simp [hstem] at hextension
      · rw [if_neg hstem, Option.some.injEq] at hextension
        exact ⟨stem, hstem, by rw [hextension, hjoined]⟩
    · rw [extension?_of_no_dot hdot] at hextension
      cases hextension
  · rintro ⟨stem, hstem, rfl⟩
    rw [← hjoined, extension?_of_last_dot (by decide), if_neg hstem]

theorem isSkippedName_eq_false_iff {name : String} :
    isSkippedName name = false ↔ name ≠ "node_modules" ∧ ∀ rest, name ≠ "." ++ rest := by
  have hhead : name.toList.head? = some '.' ↔ ∃ rest, name = "." ++ rest := by
    constructor
    · intro hdot
      obtain ⟨rest, hrest⟩ := List.head?_eq_some_iff.mp hdot
      refine ⟨String.ofList rest, String.toList_inj.mp ?_⟩
      simpa using hrest
    · rintro ⟨rest, rfl⟩
      simp
  rw [isSkippedName, Bool.or_eq_false_iff, decide_eq_false_iff_not, decide_eq_false_iff_not, hhead,
    not_exists, and_comm]

namespace FileTree

/-! ## The order of the listing -/

def sourcesUnder (name : String) : FileTree → List SourceFile
  | .file content => if isSourceName name then [⟨[name], content⟩] else []
  | .folder entries =>
      if isSkippedName name then []
      else (FileTree.folder entries).sources.map fun file => { file with names := name :: file.names }

theorem sourcesOfEntries_eq_map (entries : List (String × FileTree)) :
    sourcesOfEntries entries = entries.map fun entry => (entry.1, sourcesUnder entry.1 entry.2) := by
  induction entries with
  | nil => rw [sourcesOfEntries]; rfl
  | cons entry rest ih =>
      obtain ⟨name, tree⟩ := entry
      cases tree with
      | file content => rw [sourcesOfEntries, ih]; rfl
      | folder entries =>
          rw [sourcesOfEntries, ih, List.map_cons, sourcesUnder, sources]
          by_cases hskipped : isSkippedName name = true <;> simp [hskipped]

theorem sources_folder (entries : List (String × FileTree)) :
    (FileTree.folder entries).sources =
      inNameOrder (entries.map fun entry => (entry.1, sourcesUnder entry.1 entry.2)) := by
  rw [sources, sourcesOfEntries_eq_map]

theorem mem_sourcesUnder {name : String} {tree : FileTree} {file : SourceFile} :
    file ∈ sourcesUnder name tree ↔
      (∃ content, tree = .file content ∧ isSourceName name = true ∧ file = ⟨[name], content⟩) ∨
      (isSkippedName name = false ∧
        ∃ inner ∈ tree.sources, file = ⟨name :: inner.names, inner.content⟩) := by
  cases tree with
  | file content =>
      by_cases hsource : isSourceName name = true <;> simp [sourcesUnder, sources, hsource]
  | folder entries =>
      by_cases hskipped : isSkippedName name = true <;> simp [sourcesUnder, hskipped, @eq_comm _ file]

theorem names_of_mem_sourcesUnder {name : String} {tree : FileTree} {file : SourceFile}
    (h : file ∈ sourcesUnder name tree) : ∃ rest, file.names = name :: rest := by
  rcases mem_sourcesUnder.mp h with ⟨content, _, _, rfl⟩ | ⟨_, inner, _, rfl⟩
  · exact ⟨[], rfl⟩
  · exact ⟨inner.names, rfl⟩

theorem mergeSort_names_increasing {found : List (String × List SourceFile)}
    (h : (found.map (·.1)).Nodup) :
    (found.mergeSort fun a b => decide (a.1 ≤ b.1)).Pairwise (·.1 < ·.1) := by
  have hsorted : (found.mergeSort fun a b => decide (a.1 ≤ b.1)).Pairwise
      fun a b => decide (a.1 ≤ b.1) = true := by
    apply List.pairwise_mergeSort
    · intro a b c hab hbc
      simp only [decide_eq_true_eq] at hab hbc ⊢
      exact String.le_trans hab hbc
    · intro a b
      simpa using String.le_total a.1 b.1
  have hdistinct : (found.mergeSort fun a b => decide (a.1 ≤ b.1)).Pairwise (·.1 ≠ ·.1) := by
    have hperm := (List.mergeSort_perm found fun a b => decide (a.1 ≤ b.1)).map (·.1)
    exact List.pairwise_map.mp (hperm.nodup_iff.mpr h)
  refine List.Pairwise.imp₂ ?_ hsorted hdistinct
  intro a b hle hne
  refine String.not_le.mp fun hge => hne ?_
  exact String.le_antisymm (of_decide_eq_true hle) hge

/-- Groups of files under distinct first names are put in order by these names. -/
theorem inNameOrder_increasing {found : List (String × List SourceFile)}
    (hnames : (found.map (·.1)).Nodup)
    (hunder : ∀ group ∈ found, ∀ file ∈ group.2, ∃ rest, file.names = group.1 :: rest)
    (hgroups : ∀ group ∈ found, group.2.Pairwise (·.names < ·.names)) :
    (inNameOrder found).Pairwise (·.names < ·.names) := by
  rw [inNameOrder, List.pairwise_flatMap]
  constructor
  · intro group hgroup
    exact hgroups group (List.mem_mergeSort.mp hgroup)
  · refine (mergeSort_names_increasing hnames).imp_of_mem ?_
    intro first second hfirst hsecond hlt file hfile other hother
    obtain ⟨rest, hrest⟩ := hunder first (List.mem_mergeSort.mp hfirst) file hfile
    obtain ⟨rest', hrest'⟩ := hunder second (List.mem_mergeSort.mp hsecond) other hother
    rw [hrest, hrest', List.cons_lt_cons_iff]
    exact Or.inl hlt

theorem sourcesUnder_increasing {name : String} {tree : FileTree}
    (h : tree.sources.Pairwise (·.names < ·.names)) :
    (sourcesUnder name tree).Pairwise (·.names < ·.names) := by
  cases tree with
  | file content =>
      by_cases hsource : isSourceName name = true <;> simp [sourcesUnder, hsource]
  | folder entries =>
      by_cases hskipped : isSkippedName name = true
      · simp [sourcesUnder, hskipped]
      · simp only [sourcesUnder, hskipped, if_false, Bool.false_eq_true, List.pairwise_map]
        refine h.imp ?_
        intro file other hlt
        rw [List.cons_lt_cons_iff]
        exact Or.inr ⟨rfl, hlt⟩

theorem WellNamed.sources_increasing {tree : FileTree} (h : tree.WellNamed) :
    tree.sources.Pairwise (·.names < ·.names) := by
  induction h with
  | file content =>
      rw [sources]
      exact .nil
  | @folder entries distinct _ _ ih =>
      rw [sources_folder]
      apply inNameOrder_increasing
      · simpa [Function.comp_def] using distinct
      · intro group hgroup file hfile
        obtain ⟨entry, _, rfl⟩ := List.mem_map.mp hgroup
        exact names_of_mem_sourcesUnder hfile
      · intro group hgroup
        obtain ⟨entry, hentry, rfl⟩ := List.mem_map.mp hgroup
        exact sourcesUnder_increasing (ih entry hentry)

/-! ## The files of the listing -/

/-- A file that a walk comes to: a source file in the folder, or one that an entered folder offers. -/
inductive Offers : FileTree → List String → ByteArray → Prop where
  | here {entries : List (String × FileTree)} {name : String} {content : ByteArray}
      (entry : (name, .file content) ∈ entries) (source : isSourceName name = true) :
      Offers (.folder entries) [name] content
  | deeper {entries : List (String × FileTree)} {name : String} {inner : FileTree}
      {names : List String} {content : ByteArray} (entry : (name, inner) ∈ entries)
      (entered : isSkippedName name = false) (offered : Offers inner names content) :
      Offers (.folder entries) (name :: names) content

theorem mem_sources_folder {entries : List (String × FileTree)} {file : SourceFile} :
    file ∈ (FileTree.folder entries).sources ↔
      ∃ entry ∈ entries, file ∈ sourcesUnder entry.1 entry.2 := by
  rw [sources_folder, inNameOrder]
  simp

theorem offers_of_mem_sources {tree : FileTree} {names : List String} {content : ByteArray}
    (h : ⟨names, content⟩ ∈ tree.sources) : tree.Offers names content := by
  -- one entry of a folder gives the first name, and the rest is a listing inside that entry
  induction names generalizing tree with
  | nil =>
      cases tree with
      | file content => simp [sources] at h
      | folder entries =>
          obtain ⟨entry, _, hunder⟩ := mem_sources_folder.mp h
          obtain ⟨rest, hrest⟩ := names_of_mem_sourcesUnder hunder
          cases hrest
  | cons first rest ih =>
      cases tree with
      | file content => simp [sources] at h
      | folder entries =>
          obtain ⟨⟨name, inner⟩, hentry, hunder⟩ := mem_sources_folder.mp h
          rcases mem_sourcesUnder.mp hunder with
            ⟨content, hinner, hsource, hfile⟩ | ⟨hentered, file, hmem, hfile⟩
          · cases hfile
            cases hinner
            exact .here hentry hsource
          · cases hfile
            exact .deeper hentry hentered (ih hmem)

theorem mem_sources_of_offers {tree : FileTree} {names : List String} {content : ByteArray}
    (h : tree.Offers names content) : ⟨names, content⟩ ∈ tree.sources := by
  induction h with
  | here entry source =>
      refine mem_sources_folder.mpr ⟨_, entry, ?_⟩
      exact mem_sourcesUnder.mpr (Or.inl ⟨_, rfl, source, rfl⟩)
  | deeper entry entered _ ih =>
      refine mem_sources_folder.mpr ⟨_, entry, ?_⟩
      exact mem_sourcesUnder.mpr (Or.inr ⟨entered, _, ih, rfl⟩)

/-- A source file at the end of a way through folders none of which is passed over. -/
structure HoldsSource (tree : FileTree) (around : List String) (name : String)
    (content : ByteArray) : Prop where
  file : tree.at? (around ++ [name]) = some (.file content)
  extension : ∃ stem, stem ≠ "" ∧ name = stem ++ ".ts"
  entered : ∀ outer ∈ around, outer ≠ "node_modules" ∧ ∀ rest, outer ≠ "." ++ rest

theorem Offers.holdsSource {tree : FileTree} {names : List String} {content : ByteArray}
    (h : tree.Offers names content) (wellNamed : tree.WellNamed) :
    ∃ around name, names = around ++ [name] ∧ tree.HoldsSource around name content := by
  induction h with
  | @here entries name content entry source =>
      cases wellNamed with
      | folder distinct _ _ =>
          have hfile : at? [name] (.folder entries) = some (.file content) := by
            rw [at?, lookup_of_mem distinct entry, Option.bind_some, at?]
          exact ⟨[], name, rfl, hfile, isSourceName_iff.mp source, by simp⟩
  | @deeper entries name inner names content entry entered offered ih =>
      cases wellNamed with
      | folder distinct _ inside =>
          obtain ⟨around, last, rfl, holds⟩ := ih (inside _ entry)
          have hfile : at? (name :: around ++ [last]) (.folder entries) = some (.file content) := by
            rw [List.cons_append, at?, lookup_of_mem distinct entry, Option.bind_some, holds.file]
          refine ⟨name :: around, last, rfl, hfile, holds.extension, ?_⟩
          intro outer houter
          rcases List.mem_cons.mp houter with rfl | houter
          · exact isSkippedName_eq_false_iff.mp entered
          · exact holds.entered outer houter

theorem HoldsSource.offers {tree : FileTree} {around : List String} {name : String}
    {content : ByteArray} (h : tree.HoldsSource around name content) :
    tree.Offers (around ++ [name]) content := by
  obtain ⟨hfile, hextension, hentered⟩ := h
  have hsource := isSourceName_iff.mpr hextension
  induction around generalizing tree with
  | nil =>
      cases tree with
      | file content => cases hfile
      | folder entries =>
          rw [List.nil_append, at?, Option.bind_eq_some_iff] at hfile
          obtain ⟨found, hfound, hat⟩ := hfile
          cases hat
          exact .here (mem_of_lookup hfound) hsource
  | cons outer rest ih =>
      cases tree with
      | file content => cases hfile
      | folder entries =>
          rw [List.cons_append, at?, Option.bind_eq_some_iff] at hfile
          obtain ⟨inner, hinner, hat⟩ := hfile
          have houter := isSkippedName_eq_false_iff.mpr (hentered outer List.mem_cons_self)
          have hrest := ih hat fun other hother => hentered other (List.mem_cons_of_mem _ hother)
          exact .deeper (mem_of_lookup hinner) houter hrest

theorem WellNamed.mem_sources_iff {tree : FileTree} (h : tree.WellNamed) {file : SourceFile} :
    file ∈ tree.sources ↔
      ∃ around name, tree.HoldsSource around name file.content ∧ file.names = around ++ [name] := by
  constructor
  · intro hfile
    obtain ⟨around, name, hnames, holds⟩ := (offers_of_mem_sources hfile).holdsSource h
    exact ⟨around, name, holds, hnames⟩
  · rintro ⟨around, name, holds, hnames⟩
    have hlisted := mem_sources_of_offers holds.offers
    rwa [← hnames] at hlisted

/-! ## Other orders of entries -/

theorem Offers.reordered {tree other : FileTree} {names : List String} {content : ByteArray}
    (offers : tree.Offers names content) (h : tree.Reordered other) :
    other.Offers names content := by
  induction offers generalizing other with
  | @here entries name content entry source =>
      cases h with
      | @folder _ others hnames inside =>
          have hname := hnames.subset (List.mem_map_of_mem entry)
          obtain ⟨⟨_, partner⟩, hpartner, rfl⟩ := List.mem_map.mp hname
          cases inside _ _ _ entry hpartner
          exact .here hpartner source
  | @deeper entries name inner names content entry entered offered ih =>
      cases h with
      | @folder _ others hnames inside =>
          have hname := hnames.subset (List.mem_map_of_mem entry)
          obtain ⟨⟨_, partner⟩, hpartner, rfl⟩ := List.mem_map.mp hname
          exact .deeper hpartner entered (ih (inside _ _ _ entry hpartner))

/-- Files in a listing are distinct and their order is given by their names, so folders that order their
entries in another way have the same listing. -/
theorem Reordered.sources_eq {tree other : FileTree} (h : tree.Reordered other)
    (wellNamed : tree.WellNamed) : other.sources = tree.sources := by
  have htree := wellNamed.sources_increasing
  have hother := (h.wellNamed wellNamed).sources_increasing
  have hnodup : ∀ files : List SourceFile, files.Pairwise (·.names < ·.names) → files.Nodup := by
    intro files hfiles
    refine hfiles.imp ?_
    rintro file _ hlt rfl
    exact List.lt_irrefl file.names hlt
  have hperm : other.sources.Perm tree.sources := by
    refine (List.perm_ext_iff_of_nodup (hnodup _ hother) (hnodup _ htree)).mpr ?_
    intro file
    constructor
    · intro hfile
      exact mem_sources_of_offers ((offers_of_mem_sources hfile).reordered h.symm)
    · intro hfile
      exact mem_sources_of_offers ((offers_of_mem_sources hfile).reordered h)
  refine List.Perm.eq_of_pairwise ?_ hother htree hperm
  intro file partner _ _ hlt hgt
  exact absurd hgt (List.lt_asymm hlt)

end FileTree

namespace Files

theorem exists_folder_of_isFolder {files : Files} {path : String} (h : files.isFolder path = true) :
    ∃ place entries, files.locate path = .ok place ∧
      files.root.at? place = some (.folder entries) := by
  unfold isFolder find at h
  cases hplace : files.locate path with
  | error e => simp [hplace, bind, Except.bind] at h
  | ok place =>
      cases hat : files.root.at? place with
      | none => simp [hplace, hat, bind, Except.bind] at h
      | some tree =>
          cases tree with
          | file content => simp [hplace, hat, bind, Except.bind] at h
          | folder entries => exact ⟨place, entries, rfl, hat⟩

theorem sources?_eq {files : Files} {path : String} {place : List String}
    {entries : List (String × FileTree)} (hplace : files.locate path = .ok place)
    (hat : files.root.at? place = some (.folder entries)) :
    files.sources? path = some ((FileTree.folder entries).sources.map fun file =>
      (absolute (place ++ file.names), file.content)) := by
  simp only [sources?, hplace, hat]

theorem sources?_reordered {files : Files} {root : FileTree} (h : files.root.Reordered root)
    (wellNamed : files.root.WellNamed) {path : String} {place : List String}
    {entries : List (String × FileTree)} (hplace : files.locate path = .ok place)
    (hat : files.root.at? place = some (.folder entries)) :
    ({ files with root := root } : Files).sources? path = files.sources? path := by
  have hthere := h.at? place
  rw [hat] at hthere
  generalize hother : root.at? place = other at hthere
  cases hthere with
  | some hsame =>
      have hsources := hsame.sources_eq (wellNamed.at? hat).1
      cases hsame with
      | @folder _ others _ _ =>
          have hlocated : ({ files with root := root } : Files).locate path = .ok place :=
            (locate_reordered h path).trans hplace
          rw [sources?_eq hlocated hother, sources?_eq hplace hat, hsources]

theorem names_of_listed {tree : FileTree} (wellNamed : tree.WellNamed) {place : List String}
    (hplace : ∀ name ∈ place, IsFileName name) {file : SourceFile} (h : file ∈ tree.sources) :
    Path.names (absolute (place ++ file.names)) = place ++ file.names := by
  obtain ⟨around, name, holds, hnames⟩ := wellNamed.mem_sources_iff.mp h
  have hproper := (wellNamed.at? holds.file).2
  rw [← hnames] at hproper
  apply names_absolute
  intro other hother
  rcases List.mem_append.mp hother with hother | hother
  · exact hplace other hother
  · exact hproper other hother

/-- The listing of any folder in a well-named tree. Its paths increase name by name. It has exactly the
files below the folder that have the extension and for which no folder in between is passed over; the
names that lead to the folder itself do not matter. It stays the same when folders order their entries in
another way. -/
theorem sources?_lists (files : Files) (wellNamed : files.root.WellNamed) (folder : String)
    (hfolder : files.isFolder folder = true) :
    ∃ place tree found,
      files.locate folder = .ok place ∧ files.root.at? place = some tree ∧
      files.sources? folder = some found ∧
      (found.map fun file => Path.names file.1).Pairwise (· < ·) ∧
      (∀ path content, (path, content) ∈ found ↔
        ∃ around name, tree.HoldsSource around name content ∧
          path = absolute (place ++ around ++ [name])) ∧
      ∀ root, files.root.Reordered root →
        ({ files with root := root } : Files).sources? folder = some found := by
  obtain ⟨place, entries, hplace, hat⟩ := exists_folder_of_isFolder hfolder
  obtain ⟨hinside, hproper⟩ := wellNamed.at? hat
  refine ⟨place, .folder entries, _, hplace, hat, sources?_eq hplace hat, ?_, ?_, ?_⟩
  · rw [List.map_map, List.pairwise_map]
    refine hinside.sources_increasing.imp_of_mem ?_
    intro file other hfile hother hlt
    rw [Function.comp_apply, Function.comp_apply, names_of_listed hinside hproper hfile,
      names_of_listed hinside hproper hother]
    exact List.append_left_lt hlt
  · intro path content
    rw [List.mem_map]
    constructor
    · rintro ⟨file, hfile, hpath⟩
      cases hpath
      obtain ⟨around, name, holds, hnames⟩ := hinside.mem_sources_iff.mp hfile
      exact ⟨around, name, holds, by rw [hnames, List.append_assoc]⟩
    · rintro ⟨around, name, holds, rfl⟩
      refine ⟨⟨around ++ [name], content⟩, ?_, by rw [List.append_assoc]⟩
      exact hinside.mem_sources_iff.mpr ⟨around, name, holds, rfl⟩
  · intro root hroot
    rw [sources?_reordered hroot wellNamed hplace hat, sources?_eq hplace hat]

theorem sources?_lists_in_hidden_folder :
    let inside : FileTree := .folder [("z.ts", .file ⟨#[]⟩), ("b", .folder [("a.ts", .file ⟨#[47]⟩)])]
    let files : Files := ⟨.folder [(".app", inside)], []⟩
    files.root.WellNamed ∧ files.isFolder ".app" = true ∧
    ∃ found, files.sources? ".app" = some found ∧
      (found.map fun file => Path.names file.1).Pairwise (· < ·) ∧
      ("/.app/b/a.ts", ⟨#[47]⟩) ∈ found ∧ ("/.app/z.ts", ⟨#[]⟩) ∈ found := by
  intro inside files
  have hnames : ∀ name ∈ [".app", "z.ts", "b", "a.ts"], IsFileName name := by
    intro name hname
    constructor <;> revert name <;> decide
  have hb : (FileTree.folder [("a.ts", .file ⟨#[47]⟩)]).WellNamed :=
    .folder (by decide) (by simpa using hnames "a.ts" (by decide)) (by simpa using .file _)
  have hinside : inside.WellNamed := by
    refine .folder (by decide) ?_ ?_
    · simpa using ⟨hnames "z.ts" (by decide), hnames "b" (by decide)⟩
    · simpa using ⟨.file _, hb⟩
  have hroot : files.root.WellNamed :=
    .folder (by decide) (by simpa using hnames ".app" (by decide)) (by simpa using hinside)
  have hfolder : files.isFolder ".app" = true := by decide +kernel
  obtain ⟨place, tree, found, hplace, htree, hfound, hincreasing, hexact, _⟩ :=
    sources?_lists files hroot ".app" hfolder
  have hat : files.locate ".app" = .ok [".app"] := by decide +kernel
  cases hplace.symm.trans hat
  cases htree
  refine ⟨hroot, hfolder, found, hfound, hincreasing, ?_, ?_⟩
  · refine (hexact _ _).mpr ⟨["b"], "a.ts", ⟨rfl, ⟨"a", by decide, by decide⟩, ?_⟩, by decide⟩
    intro outer houter
    rw [List.mem_singleton.mp houter]
    exact isSkippedName_eq_false_iff.mp (by decide)
  · exact (hexact _ _).mpr ⟨[], "z.ts", ⟨rfl, ⟨"z", by decide, by decide⟩, by simp⟩, by decide⟩

end Files
end ActionAtlas
