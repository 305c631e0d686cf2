import ActionAtlas.Proofs.Layers
import Mathlib.Data.List.Perm.Basic

/-!
# Options from layers

What a file, the environment and settings given on the spot say together. A layer that is put on top
of another one replaces by spelling, so a setting is spelt twice afterwards when the lower layer uses
its second spelling and the upper one sets it. The environment and the settings given on the spot
never use a second spelling; a file may.

Layers that can each be read alone can therefore be read together exactly when no setting of the file
clashes with a layer above it. Every setting then has the content that the topmost layer setting it
gives, or its usual one.
-/

namespace ActionAtlas

open Json

/-! ## A setting in a layer -/

def Setting.content? (setting : Setting) : Option Value → Option setting.Content
  | none => some (({} : Options).get setting)
  | some value => (setting.read value).toOption

namespace Layer

/-- What a layer says about a setting by its first spelling. -/
def named? (layer : Layer) (setting : Setting) : Option Value := layer.lookup setting.name

def aliased? (layer : Layer) (setting : Setting) : Option Value :=
  setting.alias?.bind fun spelling => layer.lookup spelling

def value? (layer : Layer) (setting : Setting) : Option Value :=
  (layer.named? setting).or (layer.aliased? setting)

def SpeltOnce (layer : Layer) (setting : Setting) : Prop :=
  layer.named? setting = none ∨ layer.aliased? setting = none

theorem aliased?_of_lowerCase {layer : Layer} (h : layer.LowerCase) (setting : Setting) :
    layer.aliased? setting = none := by
  unfold aliased?
  cases halias : setting.alias? with
  | none => rfl
  | some spelling =>
      have hcapital : spelling.toList.any Char.isUpper = true := by
        cases setting <;> simp only [Setting.alias?, Option.some.injEq, reduceCtorEq] at halias
        case keepEmpty | reducerNameDepth =>
          subst halias
          decide
      obtain ⟨c, hc, hupper⟩ := List.any_eq_true.mp hcapital
      refine lookup_eq_none_of_not_mem fun hmem => ?_
      rw [h spelling hmem c hc] at hupper
      cases hupper

section Cons

variable (setting : Setting) (head : String) (value : Value) (rest : Layer)

theorem named?_cons :
    Layer.named? ((head, value) :: rest) setting =
      if setting.name = head then some value else rest.named? setting :=
  lookup_cons_eq_ite setting.name head value rest

theorem aliased?_cons :
    Layer.aliased? ((head, value) :: rest) setting =
      if setting.alias? = some head then some value else rest.aliased? setting := by
  unfold aliased?
  cases setting.alias? with
  | none => rfl
  | some spelling => simp [lookup_cons_eq_ite]

theorem given_cons :
    setting.given ((head, value) :: rest) =
      if setting.isSpelt head = true then value :: setting.given rest else setting.given rest := by
  unfold Setting.given
  rw [List.filter_cons]
  split <;> rfl

end Cons

/-- A layer gives at most one value for each spelling of a setting, in whatever order they come. -/
theorem given_perm (setting : Setting) {layer : Layer} (h : (layer.map (·.1)).Nodup) :
    (setting.given layer).Perm
      ((layer.named? setting).toList ++ (layer.aliased? setting).toList) := by
  induction layer with
  | nil => cases setting <;> exact List.Perm.refl []
  | cons field rest ih =>
      obtain ⟨head, value⟩ := field
      rw [List.map_cons, List.nodup_cons] at h
      have hgone : List.lookup head rest = none := lookup_eq_none_of_not_mem h.1
      have hrest := ih h.2
      rw [named?_cons, aliased?_cons, given_cons]
      by_cases hname : setting.name = head
      · have halias : setting.alias? ≠ some head := by
          rw [← hname]
          cases setting <;> decide
        have hnamed : Layer.named? rest setting = none := by rw [named?, hname, hgone]
        rw [hnamed] at hrest
        simpa [Setting.isSpelt, hname, halias] using hrest
      · by_cases halias : setting.alias? = some head
        · have haliased : Layer.aliased? rest setting = none := by
            rw [aliased?, halias, Option.bind_some, hgone]
          rw [haliased, Option.toList_none, List.append_nil] at hrest
          simp only [Setting.isSpelt, hname, halias, beq_self_eq_true, Bool.or_true, if_true,
            if_false, Option.toList_some]
          exact (hrest.cons value).trans (List.perm_append_singleton value _).symm
        · simpa [Setting.isSpelt, Ne.symm hname, hname, halias] using hrest

end Layer

namespace Setting

variable (setting : Setting)

theorem settle?_single (value : Value) :
    setting.settle? [value] = setting.content? (some value) := by
  rw [settle?, fill, accept, content?]
  cases setting.read value <;> rfl

theorem settle?_several (first second : Value) (rest : List Value) :
    setting.settle? (first :: second :: rest) = none := by
  unfold settle? fill
  cases setting.accept none first <;> rfl

theorem settle?_perm {values others : List Value} (h : values.Perm others) :
    setting.settle? values = setting.settle? others := by
  cases values with
  | nil => rw [h.nil_eq]
  | cons first rest =>
      cases rest with
      | nil => rw [h.singleton_eq]
      | cons second rest =>
          have hlength := h.length_eq
          obtain _ | ⟨other, _ | ⟨next, more⟩⟩ := others
          · simp at hlength
          · simp at hlength
          · rw [settle?_several, settle?_several]

theorem settle?_toList (named aliased : Option Value) :
    setting.settle? (named.toList ++ aliased.toList) =
      if named = none ∨ aliased = none then setting.content? (named.or aliased) else none := by
  cases named with
  | none =>
      cases aliased with
      | none => rfl
      | some value => simpa using settle?_single setting value
  | some value =>
      cases aliased with
      | none => simpa using settle?_single setting value
      | some second => exact settle?_several setting value second []

theorem settle?_given {setting : Setting} {layer : Layer} (h : (layer.map (·.1)).Nodup)
    {content : setting.Content} :
    setting.settle? (setting.given layer) = some content ↔
      layer.SpeltOnce setting ∧ setting.content? (layer.value? setting) = some content := by
  rw [setting.settle?_perm (Layer.given_perm setting h), setting.settle?_toList]
  exact Option.ite_none_right_eq_some

end Setting

namespace Layer

def sets (layer : Layer) (setting : Setting) : Bool := (layer.value? setting).isSome

def Makes (layer : Layer) (options : Options) : Prop :=
  (Options.ofJson (.obj layer)).toOption = some options

theorem makes_iff {layer : Layer} (h : (layer.map (·.1)).Nodup) {options : Options} :
    layer.Makes options ↔
      ∀ setting, layer.SpeltOnce setting ∧
        setting.content? (layer.value? setting) = some (options.get setting) := by
  rw [Makes, Options.ofJson_obj_eq_some_iff]
  exact forall_congr' fun setting => Setting.settle?_given h

theorem Makes.get_of_not_sets {layer : Layer} (h : (layer.map (·.1)).Nodup) {options : Options}
    (hmakes : layer.Makes options) {setting : Setting} (hsets : ¬ layer.sets setting = true) :
    options.get setting = ({} : Options).get setting := by
  have hcontent := ((makes_iff h).mp hmakes setting).2
  rw [sets, Option.not_isSome_iff_eq_none] at hsets
  rw [hsets, Setting.content?, Option.some.injEq] at hcontent
  exact hcontent.symm

/-! ## One layer on top of another -/

/-- A layer without a name twice and without capital letters. -/
structure Plain (layer : Layer) : Prop where
  nodup : (layer.map (·.1)).Nodup
  lowerCase : layer.LowerCase

/-- The upper layer sets what the lower one sets by the second spelling. -/
def Clash (lower upper : Layer) (setting : Setting) : Prop :=
  (lower.aliased? setting).isSome = true ∧ upper.sets setting = true

section Under

variable {lower upper : Layer} (h : upper.Plain) (setting : Setting)

include h

theorem Plain.value?_eq : upper.value? setting = upper.named? setting := by
  rw [value?, aliased?_of_lowerCase h.lowerCase, Option.or_none]

theorem aliased?_under : (lower.under upper).aliased? setting = lower.aliased? setting := by
  have hupper := aliased?_of_lowerCase h.lowerCase setting
  unfold aliased? at hupper ⊢
  cases halias : setting.alias? with
  | none => rfl
  | some spelling =>
      rw [halias, Option.bind_some] at hupper
      rw [Option.bind_some, Option.bind_some, lookup_under lower h.nodup, hupper, Option.none_or]

theorem named?_under :
    (lower.under upper).named? setting = (upper.value? setting).or (lower.named? setting) := by
  rw [h.value?_eq]
  exact lookup_under lower h.nodup setting.name

theorem value?_under :
    (lower.under upper).value? setting = (upper.value? setting).or (lower.value? setting) := by
  rw [value?, named?_under h, aliased?_under h, Option.or_assoc]
  rfl

theorem speltOnce_under :
    (lower.under upper).SpeltOnce setting ↔
      lower.SpeltOnce setting ∧ ¬ Clash lower upper setting := by
  unfold SpeltOnce Clash sets
  rw [named?_under h, aliased?_under h]
  cases upper.value? setting <;> cases lower.named? setting <;> cases lower.aliased? setting <;> simp

theorem clash_under {above : Layer} :
    Clash (lower.under upper) above setting ↔ Clash lower above setting := by
  rw [Clash, aliased?_under h, Clash]

end Under

/-- What a plain layer says about a setting is what it alone makes of it. -/
theorem Plain.content?_eq {upper : Layer} (h : upper.Plain) {options : Options}
    (hmakes : Makes (under [] upper) options) (setting : Setting) :
    setting.content? (upper.value? setting) = some (options.get setting) := by
  have hnodup := (under_sorted sortedByName_nil upper).nodup
  have hcontent := ((makes_iff hnodup).mp hmakes setting).2
  have hnothing : Layer.value? [] setting = none := by cases setting <;> rfl
  rwa [value?_under h, hnothing, Option.or_none] at hcontent

theorem makes_under {lower upper : Layer} (hsorted : SortedByName lower) (h : upper.Plain)
    {below above : Options} (hbelow : lower.Makes below) (habove : Makes (under [] upper) above)
    (hfree : ∀ setting, ¬ Clash lower upper setting) :
    (lower.under upper).Makes
      (Options.ofContents fun setting =>
        if upper.sets setting then above.get setting else below.get setting) := by
  refine (makes_iff (under_sorted hsorted upper).nodup).mpr fun setting => ?_
  obtain ⟨honce, hcontent⟩ := (makes_iff hsorted.nodup).mp hbelow setting
  refine ⟨(speltOnce_under h setting).mpr ⟨honce, hfree setting⟩, ?_⟩
  have hupper := h.content?_eq habove setting
  rw [value?_under h, Options.get_ofContents, sets]
  cases hvalue : upper.value? setting with
  | none => exact hcontent
  | some value => rwa [hvalue] at hupper

end Layer

/-! ## A file, the environment and settings given on the spot -/

theorem Environment.settings_plain (environment : List (String × String)) :
    Layer.Plain (settings environment) :=
  ⟨(settings_sorted environment).nodup, settings_lowerCase environment⟩

theorem Overrides.layer_plain (overrides : Overrides) : overrides.layer.Plain :=
  ⟨overrides.names_nodup, overrides.layer_lowerCase⟩

namespace Options

/-- The options of the first layer that sets something, or the usual ones. -/
def topmost (setting : Setting) : List (Layer × Options) → Options
  | [] => {}
  | (layer, options) :: rest => if layer.sets setting then options else topmost setting rest

section Load

variable {files : Files} {environment : List (String × String)} {path : String}
  {overrides : Overrides} {file : Layer} {options : Options}

theorem load_none :
    load files environment none overrides =
      match ofLayers? [] (Environment.settings environment) overrides.layer with
      | some options => .ok options
      | none => .error .unreadable := by
  unfold load
  rfl

theorem load_none_eq_ok_iff :
    load files environment none overrides = .ok options ↔
      ((Layer.under [] (Environment.settings environment)).under overrides.layer).Makes options := by
  rw [load_none, Layer.Makes, ← ofLayers?]
  cases ofLayers? [] (Environment.settings environment) overrides.layer <;> simp

theorem load_file (h : fileLayer files path = .ok file) :
    load files environment (some path) overrides =
      match ofLayers? file (Environment.settings environment) overrides.layer with
      | some options => .ok options
      | none => .error .unreadable := by
  unfold load
  simp only [h]
  rfl

theorem load_file_eq_ok_iff (h : fileLayer files path = .ok file) :
    load files environment (some path) overrides = .ok options ↔
      ((file.under (Environment.settings environment)).under overrides.layer).Makes options := by
  rw [load_file h, Layer.Makes, ← ofLayers?]
  cases ofLayers? file (Environment.settings environment) overrides.layer <;> simp

theorem load_file_eq_unreadable (h : fileLayer files path = .ok file)
    (hnone : ∀ options,
      ¬ ((file.under (Environment.settings environment)).under overrides.layer).Makes options) :
    load files environment (some path) overrides = .error .unreadable := by
  have hlayers : ofLayers? file (Environment.settings environment) overrides.layer = none :=
    Option.eq_none_iff_forall_ne_some.mpr hnone
  rw [load_file h, hlayers]

theorem exists_fileLayer_of_load (h : load files environment (some path) overrides = .ok options) :
    ∃ file, fileLayer files path = .ok file := by
  cases hfile : fileLayer files path with
  | ok file => exact ⟨file, rfl⟩
  | error fault =>
      unfold load at h
      simp only [hfile] at h
      cases h

end Load

/-- Layers that can each be read alone can be read together, with every setting as the topmost layer
that sets it has it, unless the file uses the second spelling of a setting that a layer above it sets.
Then nothing can be read. -/
theorem load_topmost {files : Files} {environment : List (String × String)} {path : String}
    {overrides : Overrides} {fromFile fromEnvironment fromOverrides : Options}
    (hfile : load files [] (some path) {} = .ok fromFile)
    (henvironment : load files environment none {} = .ok fromEnvironment)
    (hoverrides : load files [] none overrides = .ok fromOverrides) :
    ∃ file, fileLayer files path = .ok file ∧
      ((∀ setting, ¬ file.Clash (Environment.settings environment) setting ∧
          ¬ file.Clash overrides.layer setting) →
        ∃ options, load files environment (some path) overrides = .ok options ∧
          ∀ setting, options.get setting =
            (topmost setting [(overrides.layer, fromOverrides),
              (Environment.settings environment, fromEnvironment), (file, fromFile)]).get setting) ∧
      ((∃ setting, file.Clash (Environment.settings environment) setting ∨
          file.Clash overrides.layer setting) →
        load files environment (some path) overrides = .error .unreadable) := by
  obtain ⟨file, hlayer⟩ := exists_fileLayer_of_load hfile
  have hsorted := fileLayer_sorted hlayer
  have henv := Environment.settings_plain environment
  have hover := overrides.layer_plain
  have hfileMakes := (load_file_eq_ok_iff hlayer).mp hfile
  have henvMakes := load_none_eq_ok_iff.mp henvironment
  have hoverMakes := load_none_eq_ok_iff.mp hoverrides
  refine ⟨file, hlayer, fun hfree => ?_, ?_⟩
  · -- First the environment on top of the file, then the overrides on top of both.
    have hmiddle := Layer.makes_under hsorted henv hfileMakes henvMakes fun setting =>
      (hfree setting).1
    have htop := Layer.makes_under (Layer.under_sorted hsorted _) hover hmiddle hoverMakes
      fun setting => (Layer.clash_under henv setting).not.mpr (hfree setting).2
    refine ⟨_, (load_file_eq_ok_iff hlayer).mpr htop, fun setting => ?_⟩
    rw [get_ofContents, get_ofContents]
    unfold topmost topmost topmost topmost
    by_cases hsets : file.sets setting = true
    · rw [if_pos hsets, apply_ite (Options.get · setting), apply_ite (Options.get · setting)]
    · rw [if_neg hsets, apply_ite (Options.get · setting), apply_ite (Options.get · setting),
        hfileMakes.get_of_not_sets hsorted.nodup hsets]
  · rintro ⟨setting, hclash⟩
    refine load_file_eq_unreadable hlayer fun options hmakes => ?_
    have honce := ((Layer.makes_iff
      (Layer.under_sorted (Layer.under_sorted hsorted _) _).nodup).mp hmakes setting).1
    rw [Layer.speltOnce_under hover, Layer.clash_under henv, Layer.speltOnce_under henv] at honce
    exact hclash.elim honce.1.2 honce.2

def configFolder (text : String) : Files :=
  ⟨.folder [("ngv.config.json", .file text.toUTF8)], []⟩

theorem load_topmost_each_above_another :
    let files := configFolder "\x7b\"emptyRef\":true,\"folder\":\"lib\"\x7d"
    let environment := [("NGV_FOLDER", "src"), ("NGV_SAVE", "out.json")]
    let overrides : Overrides := { folder := some "app" }
    load files [] (some "ngv.config.json") {} = .ok { folder := "lib", keepEmpty := true } ∧
      load files environment none {} = .ok { folder := "src", save := some "out.json" } ∧
      load files [] none overrides = .ok { folder := "app" } ∧
      ∃ file, fileLayer files "ngv.config.json" = .ok file ∧
        ∃ options, load files environment (some "ngv.config.json") overrides = .ok options ∧
          ∀ setting, options.get setting =
            (topmost setting [(overrides.layer, { folder := "app" }),
              (Environment.settings environment, { folder := "src", save := some "out.json" }),
              (file, { folder := "lib", keepEmpty := true })]).get setting := by
  intro files environment overrides
  have hfile : load files [] (some "ngv.config.json") {} =
      .ok { folder := "lib", keepEmpty := true } := by decide +kernel
  have henvironment : load files environment none {} =
      .ok { folder := "src", save := some "out.json" } := by decide +kernel
  have hoverrides : load files [] none overrides = .ok { folder := "app" } := by decide +kernel
  obtain ⟨file, hlayer, hfree, -⟩ := load_topmost hfile henvironment hoverrides
  refine ⟨hfile, henvironment, hoverrides, file, hlayer, hfree fun setting => ?_⟩
  -- Only two settings have a second spelling, and neither is set above the file.
  have hspellings : setting.alias? = none ∨
      Layer.sets (Environment.settings environment) setting = false ∧
        overrides.layer.sets setting = false := by
    cases setting <;> decide +kernel
  rcases hspellings with halias | ⟨henv, hover⟩
  · simp [Layer.Clash, Layer.aliased?, halias]
  · simp [Layer.Clash, henv, hover]

/-- The environment cannot take back what the file says by the second spelling. -/
theorem load_second_spelling_in_file :
    let files := configFolder "\x7b\"emptyRef\": true\x7d"
    let environment := [("NGV_EMPTY_REF", "false")]
    let overrides : Overrides := { folder := some "app" }
    load files [] (some "ngv.config.json") {} = .ok { keepEmpty := true } ∧
      load files environment none {} = .ok {} ∧
      load files [] none overrides = .ok { folder := "app" } ∧
      load files environment (some "ngv.config.json") overrides = .error .unreadable := by
  decide +kernel

end Options
end ActionAtlas
