import ActionAtlas.Options.Basic
import ActionAtlas.Proofs.JsonReading
import Mathlib.Logic.Function.Basic

/-!
# Settings one by one

Options are read from the fields of an object in one pass, all settings at once. Here the pass is
taken apart: options can be read exactly when each setting can be read from the fields that spell it,
and each setting then has the value that these fields alone give it. A setting that no field spells
keeps its usual value, and one that is spelt twice cannot be read.
-/

namespace ActionAtlas

open Json

inductive Setting where
  | folder
  | remove
  | actions
  | exclude
  | keepEmpty
  | reducerNameDepth
  | save
  deriving DecidableEq, Repr

namespace Setting

def Content : Setting → Type
  | .folder => String
  | .remove => Option String
  | .actions => Option String
  | .exclude => Option String
  | .keepEmpty => Bool
  | .reducerNameDepth => Nat
  | .save => Option String

def name : Setting → String
  | .folder => "folder"
  | .remove => "remove"
  | .actions => "actions"
  | .exclude => "exclude"
  | .keepEmpty => "empty_ref"
  | .reducerNameDepth => "reducer_name_depth"
  | .save => "save"

def alias? : Setting → Option String
  | .keepEmpty => some "emptyRef"
  | .reducerNameDepth => some "reducerNameDepth"
  | _ => none

def isSpelt (setting : Setting) (name : String) : Bool :=
  name == setting.name || setting.alias? == some name

def read : (setting : Setting) → Value → Read setting.Content
  | .folder, value => Options.readPath (Scanned.ofValue value)
  | .remove, value => Options.readPattern (Scanned.ofValue value)
  | .actions, value => Options.readPattern (Scanned.ofValue value)
  | .exclude, value => Options.readPattern (Scanned.ofValue value)
  | .keepEmpty, value => (Scanned.ofValue value).readBool
  | .reducerNameDepth, value => Options.readDepth (Scanned.ofValue value)
  | .save, value => (Scanned.ofValue value).readOption Options.readPath

end Setting

def Options.get (options : Options) : (setting : Setting) → setting.Content
  | .folder => options.folder
  | .remove => options.remove
  | .actions => options.actions
  | .exclude => options.exclude
  | .keepEmpty => options.keepEmpty
  | .reducerNameDepth => options.reducerNameDepth
  | .save => options.save

/-! ## Drafts -/

namespace Options.Draft

def get (draft : Draft) : (setting : Setting) → Option setting.Content
  | .folder => draft.folder
  | .remove => draft.remove
  | .actions => draft.actions
  | .exclude => draft.exclude
  | .keepEmpty => draft.keepEmpty
  | .reducerNameDepth => draft.reducerNameDepth
  | .save => draft.save

def ofPlaces (places : (setting : Setting) → Option setting.Content) : Draft where
  folder := places .folder
  remove := places .remove
  actions := places .actions
  exclude := places .exclude
  keepEmpty := places .keepEmpty
  reducerNameDepth := places .reducerNameDepth
  save := places .save

def set (draft : Draft) (setting : Setting) (place : Option setting.Content) : Draft :=
  ofPlaces (Function.update draft.get setting place)

@[simp] theorem get_ofPlaces (places : (setting : Setting) → Option setting.Content)
    (setting : Setting) : (ofPlaces places).get setting = places setting := by
  cases setting <;> rfl

@[simp] theorem get_start (setting : Setting) : ({} : Draft).get setting = none := by
  cases setting <;> rfl

@[simp] theorem get_set_same (draft : Draft) (setting : Setting)
    (place : Option setting.Content) : (draft.set setting place).get setting = place := by
  simp [set]

theorem get_set_other (draft : Draft) {setting other : Setting} (h : other ≠ setting)
    (place : Option setting.Content) :
    (draft.set setting place).get other = draft.get other := by
  simp [set, h]

theorem ext_get {draft other : Draft} (h : ∀ setting, draft.get setting = other.get setting) :
    draft = other := by
  obtain ⟨folder, remove, actions, exclude, keepEmpty, reducerNameDepth, save⟩ := draft
  obtain ⟨folder', remove', actions', exclude', keepEmpty', reducerNameDepth', save'⟩ := other
  rw [Draft.mk.injEq]
  exact ⟨h .folder, h .remove, h .actions, h .exclude, h .keepEmpty, h .reducerNameDepth, h .save⟩

theorem get_complete (draft : Draft) (setting : Setting) :
    draft.complete.get setting = (draft.get setting).getD (({} : Options).get setting) := by
  cases setting <;> rfl

end Options.Draft

def Options.ofContents (contents : (setting : Setting) → setting.Content) : Options :=
  (Draft.ofPlaces fun setting => some (contents setting)).complete

@[simp] theorem Options.get_ofContents (contents : (setting : Setting) → setting.Content)
    (setting : Setting) : (ofContents contents).get setting = contents setting := by
  rw [ofContents, Draft.get_complete, Draft.get_ofPlaces, Option.getD_some]

theorem Options.ext_get {options other : Options}
    (h : ∀ setting, options.get setting = other.get setting) : options = other := by
  obtain ⟨folder, remove, actions, exclude, keepEmpty, reducerNameDepth, save⟩ := options
  obtain ⟨folder', remove', actions', exclude', keepEmpty', reducerNameDepth', save'⟩ := other
  rw [Options.mk.injEq]
  exact ⟨h .folder, h .remove, h .actions, h .exclude, h .keepEmpty, h .reducerNameDepth, h .save⟩

/-! ## Taking one field -/

namespace Options.Draft

theorem take_spelt (draft : Draft) {setting : Setting} {name : String}
    (h : setting.isSpelt name = true) (value : Value) :
    draft.take name (Scanned.ofValue value) =
      fillOnce setting.name (draft.get setting) (setting.read value) >>= fun place =>
        .ok (draft.set setting place) := by
  simp only [Setting.isSpelt, Bool.or_eq_true, beq_iff_eq] at h
  rcases h with rfl | halias
  · cases setting <;> rfl
  · cases setting <;> simp only [Setting.alias?, Option.some.injEq, reduceCtorEq] at halias
    case keepEmpty | reducerNameDepth =>
      subst halias
      rfl

/-- A field that spells no setting is passed over. -/
theorem take_unspelt (draft : Draft) {name : String}
    (h : ∀ setting : Setting, setting.isSpelt name = false) (value : Value) :
    draft.take name (Scanned.ofValue value) = .ok draft := by
  unfold take
  split
  case h_1 => exact absurd (h .folder) (by decide)
  case h_2 => exact absurd (h .remove) (by decide)
  case h_3 => exact absurd (h .actions) (by decide)
  case h_4 => exact absurd (h .exclude) (by decide)
  case h_5 | h_6 => exact absurd (h .keepEmpty) (by decide)
  case h_7 | h_8 => exact absurd (h .reducerNameDepth) (by decide)
  case h_9 => exact absurd (h .save) (by decide)
  case h_10 => rw [Scanned.skip, Scanned.skipFault?_ofValue, Read.unless?_none, Read.ok_bind]; rfl

end Options.Draft

/-! ## Taking all fields -/

namespace Setting

/-- No name spells two settings. -/
theorem eq_of_isSpelt {setting other : Setting} {name : String} (h : setting.isSpelt name = true)
    (hother : other.isSpelt name = true) : other = setting := by
  simp only [isSpelt, Bool.or_eq_true, beq_iff_eq] at h hother
  rcases h with rfl | halias
  · cases setting <;> cases other <;> simp_all [Setting.name, alias?]
  · cases setting <;> simp only [alias?, Option.some.injEq, reduceCtorEq] at halias
    case keepEmpty | reducerNameDepth =>
      subst halias
      cases other <;> simp_all [Setting.name, alias?]

def given (setting : Setting) (fields : List (String × Value)) : List Value :=
  (fields.filter fun field => setting.isSpelt field.1).map (·.2)

/-- The content that a value gives to the place of a setting, which takes only one. -/
def accept (setting : Setting) : Option setting.Content → Value → Option setting.Content
  | none, value => (setting.read value).toOption
  | some _, _ => none

def fill (setting : Setting) :
    Option setting.Content → List Value → Option (Option setting.Content)
  | place, [] => some place
  | place, value :: rest =>
      (setting.accept place value).bind fun content => setting.fill (some content) rest

/-- The content of a setting for which values are given: the usual one without a value, none with
several. -/
def settle? (setting : Setting) (values : List Value) : Option setting.Content :=
  (setting.fill none values).map (·.getD (({} : Options).get setting))

end Setting

theorem Read.toOption_bind {α β : Type} (first : Read α) (next : α → Read β) :
    (first >>= next).toOption = first.toOption.bind fun value => (next value).toOption := by
  cases first <;> rfl

namespace Options

theorem Draft.take_toOption (draft : Draft) {setting : Setting} {name : String}
    (h : setting.isSpelt name = true) (value : Value) :
    (draft.take name (Scanned.ofValue value)).toOption =
      (setting.accept (draft.get setting) value).map fun content =>
        draft.set setting (some content) := by
  rw [draft.take_spelt h]
  cases draft.get setting with
  | some content => rfl
  | none =>
      rw [Setting.accept]
      cases setting.read value <;> rfl

/-- Going through the fields fills the place of every setting by itself. -/
theorem foldFields_take {draft final : Draft} {fields : List (String × Value)} :
    (foldFields Draft.take draft (Scanned.ofFields fields)).toOption = some final ↔
      ∀ setting : Setting,
        setting.fill (draft.get setting) (setting.given fields) = some (final.get setting) := by
  induction fields generalizing draft with
  | nil =>
      simp only [Scanned.ofFields, foldFields, Except.toOption, Option.some.injEq, Setting.given,
        List.filter_nil, List.map_nil, Setting.fill]
      exact ⟨fun h _ => by rw [h], Draft.ext_get⟩
  | cons field rest ih =>
      obtain ⟨name, value⟩ := field
      rw [Scanned.ofFields, foldFields]
      by_cases hname : ∃ setting : Setting, setting.isSpelt name = true
      · obtain ⟨setting, hspelt⟩ := hname
        have hothers : ∀ other, other ≠ setting →
            other.given ((name, value) :: rest) = other.given rest := by
          intro other hne
          have hunspelt : ¬ other.isSpelt name = true :=
            fun hother => hne (Setting.eq_of_isSpelt hspelt hother)
          simp [Setting.given, hunspelt]
        have hsame : setting.given ((name, value) :: rest) = value :: setting.given rest := by
          simp [Setting.given, hspelt]
        rw [Read.toOption_bind, draft.take_toOption hspelt]
        cases haccept : setting.accept (draft.get setting) value with
        | none =>
            refine ⟨fun h => absurd h (by simp), fun h => ?_⟩
            have hfill := h setting
            rw [hsame, Setting.fill, haccept] at hfill
            exact absurd hfill (by simp)
        | some content =>
            rw [Option.map_some, Option.bind_some, ih]
            refine forall_congr' fun other => ?_
            by_cases hother : other = setting
            · subst hother
              rw [Draft.get_set_same, hsame, Setting.fill, haccept, Option.bind_some]
            · rw [Draft.get_set_other draft hother, hothers other hother]
      · have hunspelt : ∀ setting : Setting, setting.isSpelt name = false := by simpa using hname
        rw [Draft.take_unspelt draft hunspelt, Read.ok_bind, ih]
        simp only [Setting.given, List.filter_cons, hunspelt]
        rfl

theorem ofJson_obj_toOption (fields : List (String × Value)) :
    (ofJson (.obj fields)).toOption =
      (foldFields Draft.take {} (Scanned.ofFields fields)).toOption.map Draft.complete := by
  rw [ofJson, Scanned.ofValue, Record.read, Read.toOption_bind, Option.map_eq_bind]
  rfl

/-- Options are read from an object setting by setting. -/
theorem ofJson_obj_eq_some_iff {fields : List (String × Value)} {options : Options} :
    (ofJson (.obj fields)).toOption = some options ↔
      ∀ setting : Setting, setting.settle? (setting.given fields) = some (options.get setting) := by
  rw [ofJson_obj_toOption, Option.map_eq_some_iff]
  constructor
  · rintro ⟨final, hfinal, rfl⟩ setting
    have hfill := foldFields_take.mp hfinal setting
    rw [Draft.get_start] at hfill
    rw [Setting.settle?, hfill, Option.map_some, Draft.get_complete]
  · intro h
    have hfill : ∀ setting : Setting, ∃ place,
        setting.fill none (setting.given fields) = some place ∧
          place.getD (({} : Options).get setting) = options.get setting :=
      fun setting => Option.map_eq_some_iff.mp (h setting)
    choose places hplaces hcontent using hfill
    refine ⟨Draft.ofPlaces places, foldFields_take.mpr ?_, ext_get ?_⟩
    · intro setting
      rw [Draft.get_start, Draft.get_ofPlaces, hplaces]
    · intro setting
      rw [Draft.get_complete, Draft.get_ofPlaces, hcontent]

end Options
end ActionAtlas
