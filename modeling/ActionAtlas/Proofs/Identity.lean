import ActionAtlas.Graph.Build
import Mathlib.Data.List.Basic

/-!
# What an id tells

The word before the first colon of an id is the kind that the id was made for. No path and no member
name can change it, since the word comes first and holds no colon itself: an action never shares its
id with a reference, and references with one id are filed under one kind. The rest of an id is a path
and a name with a mark between them. It is cut in the right place at its first mark, provided that the
path neither holds a mark nor lends half of one.
-/

namespace ActionAtlas

/-- The characters of an id before its first colon. -/
def idWord (id : String) : List Char := id.toList.takeWhile (· != ':')

theorem idWord_append {word : String} (hword : ':' ∉ word.toList) (rest : String) :
    idWord (word ++ "::" ++ rest) = word.toList := by
  have hpass : ∀ c ∈ word.toList, (c != ':') = true := by
    intro c hc
    simpa using ne_of_mem_of_not_mem hc hword
  unfold idWord
  rw [String.toList_append, String.toList_append, List.append_assoc,
    List.takeWhile_append_of_pos hpass]
  simp

namespace UsageKind

theorem colon_notMem_label (kind : UsageKind) : ':' ∉ kind.label.toList := by
  cases kind <;> decide

theorem label_injective : Function.Injective label := by
  intro a b h
  cases a <;> cases b <;> first | rfl | simp [label] at h

theorem label_ne_action (kind : UsageKind) : kind.label ≠ "Action" := by
  cases kind <;> decide

end UsageKind

theorem ActionEntry.idWord_id (action : ActionEntry) : idWord action.id = "Action".toList := by
  have hid : action.id = "Action" ++ "::" ++ (action.filePath ++ "::" ++ action.name) := by
    simp only [ActionEntry.id, String.append_assoc]
    rfl
  rw [hid]
  exact idWord_append (by decide) _

theorem ReferenceEntry.idWord_id (reference : ReferenceEntry) :
    idWord reference.id = reference.dominantKind.label.toList := by
  have hlabel := reference.dominantKind.colon_notMem_label
  unfold ReferenceEntry.id
  cases reference.dominantName? with
  | none => exact idWord_append hlabel _
  | some name =>
      change idWord (reference.dominantKind.label ++ "::" ++ reference.filePath ++ "::" ++ name) = _
      rw [String.append_assoc, String.append_assoc]
      exact idWord_append hlabel (reference.filePath ++ ("::" ++ name))

/-- Whatever paths and names contain, no action has the id of a reference. -/
theorem ActionEntry.id_ne_id (action : ActionEntry) (reference : ReferenceEntry) :
    action.id ≠ reference.id := by
  intro h
  have hword := congrArg idWord h
  rw [action.idWord_id, reference.idWord_id] at hword
  exact reference.dominantKind.label_ne_action (String.toList_inj.mp hword).symm

theorem ReferenceEntry.dominantKind_eq_of_id_eq {a b : ReferenceEntry} (h : a.id = b.id) :
    a.dominantKind = b.dominantKind := by
  have hword := congrArg idWord h
  rw [a.idWord_id, b.idWord_id] at hword
  exact UsageKind.label_injective (String.toList_inj.mp hword)

/-! ## Reading an id back -/

def idMark : List Char := "::".toList

/-- A text that ends where a mark begins behind it: there is no mark in it, and no half of one at its
end. -/
structure Unmarked (text : List Char) : Prop where
  mark_free : ¬ idMark <:+: text
  last_ne : text.getLast? ≠ some ':'

def idRest (path : List Char) : Option (List Char) → List Char
  | some name => path ++ idMark ++ name
  | none => path

def cutAtMark : List Char → List Char × Option (List Char)
  | ':' :: ':' :: rest => ([], some rest)
  | c :: rest => (c :: (cutAtMark rest).1, (cutAtMark rest).2)
  | [] => ([], none)

theorem Unmarked.tail {c : Char} {rest : List Char} (h : Unmarked (c :: rest)) : Unmarked rest := by
  refine ⟨fun hmark => h.mark_free (List.infix_cons hmark), fun hlast => h.last_ne ?_⟩
  rw [List.getLast?_cons, hlast, Option.getD_some]

/-- A path is cut from the name behind it at the right place, whatever the name contains. -/
theorem cutAtMark_idRest {path : List Char} (h : Unmarked path) (name? : Option (List Char)) :
    cutAtMark (idRest path name?) = (path, name?) := by
  induction path with
  | nil => cases name? <;> rfl
  | cons c rest ih =>
      have hstep : idRest (c :: rest) name? = c :: idRest rest name? := by
        cases name? <;> rfl
      -- a mark that began at `c` would lie in the path, or reach over its end
      have hother : ∀ more, c = ':' → idRest rest name? = ':' :: more → False := by
        rintro more rfl hmore
        cases rest with
        | nil => exact h.last_ne rfl
        | cons d after =>
            have hd : d = ':' := by
              cases name? <;> exact (List.cons.inj hmore).1
            exact h.mark_free ⟨[], after, by rw [hd]; rfl⟩
      rw [hstep, cutAtMark, ih h.tail]
      exact hother

theorem idRest_inj {path path' : List Char} {name? name?' : Option (List Char)} (h : Unmarked path)
    (h' : Unmarked path') : idRest path name? = idRest path' name?' ↔ path = path' ∧ name? = name?' := by
  constructor
  · intro heq
    have hcut := congrArg cutAtMark heq
    rw [cutAtMark_idRest h, cutAtMark_idRest h'] at hcut
    exact Prod.mk.inj hcut
  · rintro ⟨rfl, rfl⟩
    rfl

theorem ActionEntry.id_toList (action : ActionEntry) :
    action.id.toList =
      "Action".toList ++ idMark ++ idRest action.filePath.toList (some action.name.toList) := by
  simp [ActionEntry.id, idRest, idMark]

theorem ReferenceEntry.id_toList (reference : ReferenceEntry) :
    reference.id.toList =
      reference.dominantKind.label.toList ++ idMark ++
        idRest reference.filePath.toList (reference.dominantName?.map String.toList) := by
  unfold ReferenceEntry.id
  cases reference.dominantName? with
  | none => simp [idRest, idMark]
  | some name => simp [idRest, idMark]

theorem ActionEntry.id_eq_iff {a b : ActionEntry} (ha : Unmarked a.filePath.toList)
    (hb : Unmarked b.filePath.toList) : a.id = b.id ↔ a.filePath = b.filePath ∧ a.name = b.name := by
  rw [← String.toList_inj, a.id_toList, b.id_toList, List.append_cancel_left_eq, idRest_inj ha hb,
    Option.some_inj, String.toList_inj, String.toList_inj]

theorem ReferenceEntry.id_eq_iff {a b : ReferenceEntry} (ha : Unmarked a.filePath.toList)
    (hb : Unmarked b.filePath.toList) :
    a.id = b.id ↔
      a.dominantKind = b.dominantKind ∧ a.filePath = b.filePath ∧ a.dominantName? = b.dominantName? := by
  have hrest : idRest a.filePath.toList (a.dominantName?.map String.toList) =
      idRest b.filePath.toList (b.dominantName?.map String.toList) ↔
        a.filePath = b.filePath ∧ a.dominantName? = b.dominantName? := by
    rw [idRest_inj ha hb, String.toList_inj,
      (Option.map_injective fun _ _ => String.toList_inj.mp).eq_iff]
  constructor
  · intro hid
    have hkind := dominantKind_eq_of_id_eq hid
    have htext := congrArg String.toList hid
    rw [a.id_toList, b.id_toList, hkind, List.append_cancel_left_eq] at htext
    exact ⟨hkind, hrest.mp htext⟩
  · rintro ⟨hkind, hsame⟩
    rw [← String.toList_inj, a.id_toList, b.id_toList, hkind, hrest.mpr hsame]

/-- What ids tell apart. Where paths have no mark of an id in them and none at their end, two references
share an id when they agree in dominant kind, path and dominant name, and two actions when they agree in
path and name. Whatever paths and names are, an action never shares its id with a reference, and
references with one id have one dominant kind. -/
theorem ids_tell_apart :
    (∀ a b : ReferenceEntry, Unmarked a.filePath.toList → Unmarked b.filePath.toList →
      (a.id = b.id ↔ a.dominantKind = b.dominantKind ∧ a.filePath = b.filePath ∧
        a.dominantName? = b.dominantName?)) ∧
    (∀ a b : ActionEntry, Unmarked a.filePath.toList → Unmarked b.filePath.toList →
      (a.id = b.id ↔ a.filePath = b.filePath ∧ a.name = b.name)) ∧
    (∀ (action : ActionEntry) (reference : ReferenceEntry), action.id ≠ reference.id) ∧
    ∀ a b : ReferenceEntry, a.id = b.id → a.dominantKind = b.dominantKind :=
  ⟨fun _ _ => ReferenceEntry.id_eq_iff, fun _ _ => ActionEntry.id_eq_iff, ActionEntry.id_ne_id,
    fun _ _ => ReferenceEntry.dominantKind_eq_of_id_eq⟩

-- Without the condition: the path `p:` with the name `n`, and the path `p` with the name `:n`.
example :
    let a : ReferenceEntry := ⟨"p:", 1, [.method "n"]⟩
    let b : ReferenceEntry := ⟨"p", 1, [.method ":n"]⟩
    a.id = b.id ∧ a.filePath ≠ b.filePath := by
  decide

end ActionAtlas
