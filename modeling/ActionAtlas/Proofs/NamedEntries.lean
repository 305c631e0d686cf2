import Mathlib.Data.List.Nodup

/-!
# Entries by name

Folders, actions by their types, branches of a tree and settings are all lists of entries that are looked
up by name, where the first entry of a name is the one that counts. When no name occurs twice, the entries
and the answers are the same thing. In a map that is filled entry by entry the last one counts instead.
-/

namespace ActionAtlas

section

variable {α : Type} {entries : List (String × α)} {name : String} {value : α}

theorem lookup_cons_eq_ite (name head : String) (value : α) (rest : List (String × α)) :
    ((head, value) :: rest).lookup name = if name = head then some value else rest.lookup name := by
  by_cases h : name = head
  · rw [h, List.lookup_cons_self, if_pos rfl]
  · rw [List.lookup_cons, beq_eq_false_iff_ne.mpr h, if_neg h]

theorem lookup_cons_of_ne {head : String} (h : name ≠ head) (value : α) (rest : List (String × α)) :
    ((head, value) :: rest).lookup name = rest.lookup name := by
  rw [lookup_cons_eq_ite, if_neg h]

theorem mem_of_lookup (h : entries.lookup name = some value) : (name, value) ∈ entries := by
  obtain ⟨before, after, rfl, _⟩ := List.lookup_eq_some_iff.mp h
  simp

theorem lookup_of_mem (hdistinct : (entries.map (·.1)).Nodup) (h : (name, value) ∈ entries) :
    entries.lookup name = some value := by
  cases hfound : entries.lookup name with
  | none =>
      have hmissed := List.lookup_eq_none_iff.mp hfound _ h
      simp at hmissed
  | some other =>
      have hsame := List.inj_on_of_nodup_map hdistinct (mem_of_lookup hfound) h rfl
      cases hsame
      rfl

theorem lookup_eq_none_of_not_mem (h : name ∉ entries.map (·.1)) : entries.lookup name = none := by
  rw [List.lookup_eq_none_iff]
  intro entry hentry
  simpa using fun hsame => h (List.mem_map.mpr ⟨entry, hentry, Eq.symm hsame⟩)

theorem lookup_isSome_iff : (entries.lookup name).isSome = true ↔ name ∈ entries.map (·.1) := by
  constructor
  · intro hsome
    by_contra habsent
    rw [lookup_eq_none_of_not_mem habsent] at hsome
    simp at hsome
  · intro hname
    rw [Option.isSome_iff_ne_none]
    intro hnone
    obtain ⟨entry, hentry, rfl⟩ := List.mem_map.mp hname
    have hmissed := List.lookup_eq_none_iff.mp hnone entry hentry
    simp at hmissed

theorem lookup_map_self (value : String → α) (names : List String) (name : String) :
    (names.map fun name => (name, value name)).lookup name =
      if name ∈ names then some (value name) else none := by
  split
  case isTrue hname => exact List.lookup_graph value hname
  case isFalse hname =>
      apply lookup_eq_none_of_not_mem
      simpa using hname

theorem getElem?_foldl_insert (entries : List (String × α)) (map : Std.HashMap String α)
    (name : String) :
    (entries.foldl (fun map entry => map.insert entry.1 entry.2) map)[name]? =
      (entries.reverse.lookup name).or map[name]? := by
  induction entries generalizing map with
  | nil => simp
  | cons entry rest ih =>
      rw [List.foldl_cons, ih, List.reverse_cons, List.lookup_append, Option.or_assoc,
        Std.HashMap.getElem?_insert, lookup_cons_eq_ite]
      by_cases hname : name = entry.1
      · simp [hname]
      · simp [hname, Ne.symm hname]

theorem getElem?_foldl_insert_same (value : α) (names : List String) (map : Std.HashMap String α)
    (name : String) :
    (names.foldl (fun map name => map.insert name value) map)[name]? =
      if name ∈ names then some value else map[name]? := by
  have hentries := getElem?_foldl_insert (names.map fun name => (name, value)) map name
  rw [List.foldl_map, ← List.map_reverse, lookup_map_self fun _ => value] at hentries
  rw [hentries]
  by_cases hname : name ∈ names
  · simp [hname]
  · simp [hname]

end

end ActionAtlas
