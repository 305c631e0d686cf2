import ActionAtlas.Proofs.JsonTokens

/-!
# Written values read back

`Written` says which texts stand for a value: blanks may stand around items, around fields and behind
colons, and numbers are integers. Both layouts of the printer write such a text, and scanning one
gives the value, with what follows it left over. Values with doubles are left out, because there the
text is the shortest one that reads back, which is a fact about floating point.
-/

namespace ActionAtlas
namespace Json

open Scanned

/-! ## Texts that stand for values -/

def Blanks (text : List Char) : Prop := ∀ c ∈ text, Scanned.isBlank c = true

theorem Blanks.nil : Blanks [] := fun _ hc => nomatch hc

theorem Blanks.cons {c : Char} {text : List Char} (hc : Scanned.isBlank c = true) (h : Blanks text) :
    Blanks (c :: text) :=
  List.forall_mem_cons.mpr ⟨hc, h⟩

theorem Blanks.append {text more : List Char} (h : Blanks text) (hmore : Blanks more) :
    Blanks (text ++ more) :=
  List.forall_mem_append.mpr ⟨h, hmore⟩

/-- A value, or what is left of the items or fields of one. -/
inductive Part where
  | value (value : Value)
  | items (items : List Value)
  | fields (fields : List (String × Value))

/-- The texts that stand for a part. What is left of items or fields is at least one of them and
everything up to the closing bracket. -/
inductive Written : Part → List Char → Prop where
  | null : Written (.value .null) "null".toList
  | bool (value : Bool) : Written (.value (.bool value)) (if value then "true" else "false").toList
  | nat {n : Nat} (h : n < 0x10000000000000000) :
      Written (.value (.num (.int n))) (Nat.toDigits 10 n)
  | negative {n : Nat} (hpos : 0 < n) (h : n ≤ 0x8000000000000000) :
      Written (.value (.num (.int (-n)))) ('-' :: Nat.toDigits 10 n)
  | str (content : String) : Written (.value (.str content)) (quote content).toList
  | noItems : Written (.value (.arr [])) "[]".toList
  | someItems {items : List Value} {text : List Char} (h : Written (.items items) text) :
      Written (.value (.arr items)) ('[' :: text)
  | noFields : Written (.value (.obj [])) "\x7b\x7d".toList
  | someFields {fields : List (String × Value)} {text : List Char} (h : Written (.fields fields) text) :
      Written (.value (.obj fields)) ('\x7b' :: text)
  | lastItem {value : Value} {before text behind : List Char} (hbefore : Blanks before)
      (h : Written (.value value) text) (hbehind : Blanks behind) :
      Written (.items [value]) (before ++ text ++ behind ++ [']'])
  | item {value : Value} {items : List Value} {before text behind more : List Char}
      (hbefore : Blanks before) (h : Written (.value value) text) (hbehind : Blanks behind)
      (hmore : Written (.items items) more) :
      Written (.items (value :: items)) (before ++ text ++ behind ++ ',' :: more)
  | lastField {name : String} {value : Value} {before gap text behind : List Char}
      (hbefore : Blanks before) (hgap : Blanks gap) (h : Written (.value value) text)
      (hbehind : Blanks behind) :
      Written (.fields [(name, value)])
        (before ++ (quote name).toList ++ ':' :: gap ++ text ++ behind ++ ['\x7d'])
  | field {name : String} {value : Value} {fields : List (String × Value)}
      {before gap text behind more : List Char} (hbefore : Blanks before) (hgap : Blanks gap)
      (h : Written (.value value) text) (hbehind : Blanks behind) (hmore : Written (.fields fields) more) :
      Written (.fields ((name, value) :: fields))
        (before ++ (quote name).toList ++ ':' :: gap ++ text ++ behind ++ ',' :: more)

/-! ## Steps of the scan -/

namespace Scanned

theorem skipBlanks_append {gap : List Char} (h : Blanks gap) (text : List Char) :
    skipBlanks (gap ++ text) = skipBlanks text :=
  List.dropWhile_append_of_pos h

theorem skipBlanks_cons {c : Char} (h : isBlank c = false) (text : List Char) :
    skipBlanks (c :: text) = c :: text := by
  simp [skipBlanks, h]

theorem endsValue_append {gap rest : List Char} (hgap : Blanks gap) (h : endsValue rest = true) :
    endsValue (gap ++ rest) = true := by
  cases gap with
  | nil => exact h
  | cons c gap => simp [endsValue, hgap c List.mem_cons_self]

/-- What a value can begin with: something that shows and does not close a list. -/
def startsValue : List Char → Bool
  | [] => false
  | c :: _ => !isBlank c && c != ']'

theorem skipBlanks_of_starts {text : List Char} (h : startsValue text = true) (rest : List Char) :
    skipBlanks (text ++ rest) = text ++ rest := by
  cases text with
  | nil => cases h
  | cons c text =>
      simp only [startsValue, Bool.and_eq_true, Bool.not_eq_true'] at h
      exact skipBlanks_cons h.1 _

theorem isBlank_of_isDigit {c : Char} (h : isDigit c = true) : isBlank c = false := by
  rw [Bool.eq_false_iff]
  intro hblank
  simp only [isBlank, Bool.or_eq_true, beq_iff_eq, or_assoc] at hblank
  rcases hblank with rfl | rfl | rfl | rfl <;> cases h

variable {fuel : Nat} {input rest after : List Char} {item : Scanned} {name : String}

theorem value_skip {gap : List Char} (hgap : Blanks gap) (fuel : Nat) (input : List Char) :
    value fuel (gap ++ input) = value fuel input := by
  cases fuel with
  | zero => rfl
  | succ fuel => rw [value, value, skipBlanks_append hgap]

theorem value_digit {c : Char} (h : isDigit c = true) :
    value (fuel + 1) (c :: input) = signedNumber false (c :: input) := by
  rw [value, skipBlanks_cons (isBlank_of_isDigit h)]
  split
  case h_9 => simp_all
  all_goals simp_all [isDigit]

theorem value_quoted (h : text input = .ok (.ok name, rest)) :
    value (fuel + 1) ('"' :: input) = (.string (.ok name), some rest) := by
  simp only [value, skipBlanks_cons (c := '"') rfl, h]

theorem firstItem_of_starts {gap : List Char} (hgap : Blanks gap) (h : startsValue input = true) :
    firstItem (fuel + 1) (gap ++ input ++ rest) = itemAndMore fuel (input ++ rest) := by
  rw [firstItem, List.append_assoc, skipBlanks_append hgap, skipBlanks_of_starts h]
  cases input with
  | nil => cases h
  | cons c input =>
      simp only [startsValue, Bool.and_eq_true, bne_iff_ne] at h
      split <;> simp_all

theorem itemAndMore_last (hitem : value fuel input = (item, some rest))
    (hclose : skipBlanks rest = ']' :: after) :
    itemAndMore (fuel + 1) input = ([item], none, some after) := by
  rw [itemAndMore, hitem]
  simp [hclose]

theorem itemAndMore_more {gap more behind : List Char} (hitem : value fuel input = (item, some rest))
    (hcomma : skipBlanks rest = ',' :: (gap ++ more ++ behind)) (hgap : Blanks gap)
    (hstarts : startsValue more = true) {items : List Scanned}
    (hmore : itemAndMore fuel (more ++ behind) = (items, none, some after)) :
    itemAndMore (fuel + 1) input = (item :: items, none, some after) := by
  have hskip : skipBlanks (gap ++ more ++ behind) = more ++ behind := by
    rw [List.append_assoc, skipBlanks_append hgap, skipBlanks_of_starts hstarts]
  rw [itemAndMore, hitem]
  simp only [hcomma, hskip]
  cases more with
  | nil => cases hstarts
  | cons c more =>
      simp only [startsValue, Bool.and_eq_true, bne_iff_ne] at hstarts
      split <;> simp_all

theorem firstField_of_quote {gap : List Char} (hgap : Blanks gap) :
    firstField (fuel + 1) (gap ++ '"' :: input) = fieldAndMore fuel input := by
  simp only [firstField, skipBlanks_append hgap, skipBlanks_cons (c := '"') rfl]

theorem fieldAndMore_last {behind : List Char} (hname : text input = .ok (.ok name, ':' :: rest))
    (hitem : value fuel rest = (item, some behind)) (hclose : skipBlanks behind = '\x7d' :: after) :
    fieldAndMore (fuel + 1) input = ([(name, item)], none, some after) := by
  rw [fieldAndMore, hname]
  simp only [skipBlanks_cons (c := ':') rfl, hitem, hclose]

theorem fieldAndMore_more {behind gap more : List Char}
    (hname : text input = .ok (.ok name, ':' :: rest))
    (hitem : value fuel rest = (item, some behind))
    (hcomma : skipBlanks behind = ',' :: (gap ++ '"' :: more)) (hgap : Blanks gap)
    {fields : List (String × Scanned)} (hmore : fieldAndMore fuel more = (fields, none, some after)) :
    fieldAndMore (fuel + 1) input = ((name, item) :: fields, none, some after) := by
  rw [fieldAndMore, hname]
  simp only [skipBlanks_cons (c := ':') rfl, hitem, hcomma, skipBlanks_append hgap,
    skipBlanks_cons (c := '"') rfl, hmore]

/-! ## Scanning what is written -/

/-- A text is scanned to a part, whatever stands behind it. Where the scanner passes blanks before it
looks at the part, they are passed already. -/
def Reads : Part → List Char → Prop
  | .value written, text =>
      startsValue text = true ∧ ∀ fuel rest, endsValue rest = true → 3 * text.length ≤ fuel →
        value fuel (text ++ rest) = (ofValue written, some rest)
  | .items items, text =>
      ∃ gap more, Blanks gap ∧ text = gap ++ more ∧ startsValue more = true ∧
        ∀ fuel rest, 3 * more.length ≤ fuel →
          itemAndMore fuel (more ++ rest) = (ofItems items, none, some rest)
  | .fields fields, text =>
      ∃ gap more, Blanks gap ∧ text = gap ++ '"' :: more ∧
        ∀ fuel rest, 3 * more.length ≤ fuel →
          fieldAndMore fuel (more ++ rest) = (ofFields fields, none, some rest)

theorem reads_value {written : Value} {text : List Char} (hstarts : startsValue text = true)
    (h : ∀ fuel rest, endsValue rest = true → 3 * text.length ≤ fuel + 1 →
      value (fuel + 1) (text ++ rest) = (ofValue written, some rest)) :
    Reads (.value written) text := by
  refine ⟨hstarts, fun fuel rest hends hfuel => ?_⟩
  cases fuel with
  | zero =>
      have hnil : text = [] := List.length_eq_zero_iff.mp (by omega)
      rw [hnil] at hstarts
      cases hstarts
  | succ fuel => exact h fuel rest hends hfuel

theorem startsValue_digit {c : Char} (h : isDigit c = true) (text : List Char) :
    startsValue (c :: text) = true := by
  have hclose : c ≠ ']' := by
    rintro rfl
    cases h
  simp [startsValue, isBlank_of_isDigit h, hclose]

theorem reads_nat {n : Nat} (h : n < wordLimit) :
    Reads (.value (.num (.int n))) (Nat.toDigits 10 n) := by
  obtain ⟨c, more, hdigits⟩ := List.exists_cons_of_ne_nil (Nat.toDigits_ne_nil (n := n) (b := 10))
  have hc : isDigit c = true := isDigit_of_mem_toDigits (hdigits ▸ List.mem_cons_self)
  refine reads_value (hdigits ▸ startsValue_digit hc more) fun fuel rest hends _ => ?_
  rw [hdigits, List.cons_append, value_digit hc, ← List.cons_append, ← hdigits,
    signedNumber_toDigits false n hends, whole_toDigits h]
  rfl

theorem reads_negative {n : Nat} (hpos : 0 < n) (h : n ≤ 0x8000000000000000) :
    Reads (.value (.num (.int (-n)))) ('-' :: Nat.toDigits 10 n) := by
  refine reads_value rfl fun fuel rest hends _ => ?_
  have hnumber := signedNumber_toDigits true n hends
  rw [whole_negative_toDigits hpos h] at hnumber
  exact hnumber

theorem quote_toList (content : String) :
    (quote content).toList = '"' :: (content.toList.flatMap escapeChar ++ ['"']) := by
  simp [quote]

theorem reads_str (content : String) : Reads (.value (.str content)) (quote content).toList := by
  rw [quote_toList]
  refine reads_value rfl fun fuel rest _ _ => ?_
  have htext := text_escaped content rest
  rw [List.cons_append, List.append_assoc, List.singleton_append]
  exact value_quoted htext

theorem reads_items {items : List Value} {text : List Char} (h : Reads (.items items) text) :
    Reads (.value (.arr items)) ('[' :: text) := by
  obtain ⟨gap, more, hgap, rfl, hstarts, hmore⟩ := h
  refine reads_value rfl fun fuel rest _ hfuel => ?_
  simp only [List.length_cons, List.length_append] at hfuel
  obtain ⟨fuel, rfl⟩ := Nat.exists_eq_add_one.mpr (show 0 < fuel by omega)
  have hitems := hmore fuel rest (by omega)
  simp only [List.cons_append, value, skipBlanks_cons (c := '[') rfl, firstItem_of_starts hgap hstarts,
    hitems, ofValue]

theorem reads_fields {fields : List (String × Value)} {text : List Char}
    (h : Reads (.fields fields) text) : Reads (.value (.obj fields)) ('\x7b' :: text) := by
  obtain ⟨gap, more, hgap, rfl, hmore⟩ := h
  refine reads_value rfl fun fuel rest _ hfuel => ?_
  simp only [List.length_cons, List.length_append] at hfuel
  obtain ⟨fuel, rfl⟩ := Nat.exists_eq_add_one.mpr (show 0 < fuel by omega)
  have hfields := hmore fuel rest (by omega)
  simp only [List.cons_append, List.append_assoc, value, skipBlanks_cons (c := '\x7b') rfl,
    firstField_of_quote hgap, hfields, ofValue]

theorem startsValue_append {text : List Char} (h : startsValue text = true) (rest : List Char) :
    startsValue (text ++ rest) = true := by
  cases text with
  | nil => cases h
  | cons c text => exact h

section Entries

variable {written : Value} {before gap text behind more : List Char}

/-- A value is read up to the blanks behind it, and then the character behind the blanks is met. -/
theorem reads_up_to (h : Reads (.value written) text) (hbehind : Blanks behind) (next : Char)
    (hnext : endsValue [next] = true) (hshown : isBlank next = false) {fuel : Nat}
    (hfuel : 3 * text.length ≤ fuel) (rest : List Char) :
    value fuel (text ++ (behind ++ next :: rest)) = (ofValue written, some (behind ++ next :: rest)) ∧
      skipBlanks (behind ++ next :: rest) = next :: rest := by
  refine ⟨h.2 fuel _ (endsValue_append hbehind ?_) hfuel, ?_⟩
  · exact hnext
  · rw [skipBlanks_append hbehind, skipBlanks_cons hshown]

theorem reads_lastItem (hbefore : Blanks before) (h : Reads (.value written) text)
    (hbehind : Blanks behind) : Reads (.items [written]) (before ++ text ++ behind ++ [']']) := by
  refine ⟨before, text ++ behind ++ [']'], hbefore, by simp, ?_, fun fuel rest hfuel => ?_⟩
  · rw [List.append_assoc]
    exact startsValue_append h.1 _
  · simp only [List.length_append, List.length_singleton] at hfuel
    obtain ⟨fuel, rfl⟩ := Nat.exists_eq_add_one.mpr (show 0 < fuel by omega)
    obtain ⟨hvalue, hclose⟩ := reads_up_to h hbehind ']' rfl rfl (show _ ≤ fuel by omega) rest
    simpa [ofItems] using itemAndMore_last hvalue hclose

theorem reads_item {items : List Value} (hbefore : Blanks before) (h : Reads (.value written) text)
    (hbehind : Blanks behind) (hmore : Reads (.items items) more) :
    Reads (.items (written :: items)) (before ++ text ++ behind ++ ',' :: more) := by
  obtain ⟨gap, left, hgap, rfl, hstarts, hleft⟩ := hmore
  refine ⟨before, text ++ behind ++ ',' :: (gap ++ left), hbefore, by simp, ?_,
    fun fuel rest hfuel => ?_⟩
  · rw [List.append_assoc]
    exact startsValue_append h.1 _
  · simp only [List.length_append, List.length_cons] at hfuel
    obtain ⟨fuel, rfl⟩ := Nat.exists_eq_add_one.mpr (show 0 < fuel by omega)
    obtain ⟨hvalue, hcomma⟩ :=
      reads_up_to h hbehind ',' rfl rfl (show _ ≤ fuel by omega) (gap ++ left ++ rest)
    simpa [ofItems] using itemAndMore_more hvalue hcomma hgap hstarts (hleft fuel rest (by omega))

theorem reads_lastField (name : String) (hbefore : Blanks before) (hgap : Blanks gap)
    (h : Reads (.value written) text) (hbehind : Blanks behind) :
    Reads (.fields [(name, written)])
      (before ++ (quote name).toList ++ ':' :: gap ++ text ++ behind ++ ['\x7d']) := by
  refine ⟨before,
    name.toList.flatMap escapeChar ++ '"' :: ':' :: (gap ++ (text ++ (behind ++ ['\x7d']))), hbefore,
    by simp [quote_toList], fun fuel rest hfuel => ?_⟩
  simp only [List.length_append, List.length_cons] at hfuel
  obtain ⟨fuel, rfl⟩ := Nat.exists_eq_add_one.mpr (show 0 < fuel by omega)
  obtain ⟨hvalue, hclose⟩ := reads_up_to h hbehind '\x7d' rfl rfl (show _ ≤ fuel by omega) rest
  rw [← value_skip hgap] at hvalue
  simpa [ofFields] using fieldAndMore_last (text_escaped name _) hvalue hclose

theorem reads_field (name : String) {fields : List (String × Value)} (hbefore : Blanks before)
    (hgap : Blanks gap) (h : Reads (.value written) text) (hbehind : Blanks behind)
    (hmore : Reads (.fields fields) more) :
    Reads (.fields ((name, written) :: fields))
      (before ++ (quote name).toList ++ ':' :: gap ++ text ++ behind ++ ',' :: more) := by
  obtain ⟨space, left, hspace, rfl, hleft⟩ := hmore
  refine ⟨before,
    name.toList.flatMap escapeChar ++
      '"' :: ':' :: (gap ++ (text ++ (behind ++ ',' :: (space ++ '"' :: left)))), hbefore,
    by simp [quote_toList], fun fuel rest hfuel => ?_⟩
  simp only [List.length_append, List.length_cons] at hfuel
  obtain ⟨fuel, rfl⟩ := Nat.exists_eq_add_one.mpr (show 0 < fuel by omega)
  obtain ⟨hvalue, hcomma⟩ := reads_up_to h hbehind ',' rfl rfl (show _ ≤ fuel by omega)
    (space ++ '"' :: (left ++ rest))
  rw [← value_skip hgap] at hvalue
  simpa [ofFields] using
    fieldAndMore_more (text_escaped name _) hvalue hcomma hspace (hleft fuel rest (by omega))

end Entries
end Scanned

/-- Scanning a text that stands for a part gives the part. -/
theorem Written.reads {part : Part} {text : List Char} (h : Written part text) : Reads part text := by
  induction h with
  | null => exact reads_value rfl fun fuel rest _ _ => rfl
  | bool value => cases value <;> exact reads_value rfl fun fuel rest _ _ => rfl
  | nat h => exact reads_nat h
  | negative hpos h => exact reads_negative hpos h
  | str content => exact reads_str content
  | noItems | noFields =>
      refine reads_value rfl fun fuel rest _ hfuel => ?_
      obtain ⟨fuel, rfl⟩ := Nat.exists_eq_add_one.mpr (show 0 < fuel by simp at hfuel; omega)
      rfl
  | someItems _ ih => exact reads_items ih
  | someFields _ ih => exact reads_fields ih
  | lastItem hbefore _ hbehind ih => exact reads_lastItem hbefore ih hbehind
  | item hbefore _ hbehind _ ih ihmore => exact reads_item hbefore ih hbehind ihmore
  | lastField hbefore hgap _ hbehind ih => exact reads_lastField _ hbefore hgap ih hbehind
  | field hbefore hgap _ hbehind _ ih ihmore => exact reads_field _ hbefore hgap ih hbehind ihmore

theorem Scanned.ofText_of_written {written : Value} {text : String}
    (h : Written (.value written) text.toList) : Scanned.ofText text = (ofValue written, none) := by
  have hvalue := h.reads.2 (3 * text.toList.length + 1) [] rfl (by omega)
  rw [List.append_nil] at hvalue
  simp [Scanned.ofText, hvalue, skipBlanks]

/-! ## Both layouts -/

/-- Every number in a value is an integer that a machine word holds. -/
inductive Value.Integral : Value → Prop where
  | null : Integral .null
  | bool (value : Bool) : Integral (.bool value)
  | int {n : Int} (hlow : -0x8000000000000000 ≤ n) (hhigh : n < 0x10000000000000000) :
      Integral (.num (.int n))
  | str (content : String) : Integral (.str content)
  | arr {items : List Value} (h : ∀ item ∈ items, Integral item) : Integral (.arr items)
  | obj {fields : List (String × Value)} (h : ∀ field ∈ fields, Integral field.2) :
      Integral (.obj fields)

namespace Value

@[simp] theorem integral_bool (value : Bool) : Integral (.bool value) := .bool value

@[simp] theorem integral_str (content : String) : Integral (.str content) := .str content

@[simp] theorem integral_line (line : UInt32) : Integral (.nat line.toNat) := by
  have hline := line.toNat_lt
  exact .int (by omega) (by omega)

@[simp] theorem integral_arr_iff {items : List Value} :
    Integral (.arr items) ↔ ∀ item ∈ items, item.Integral :=
  ⟨fun | .arr h => h, .arr⟩

@[simp] theorem integral_obj_iff {fields : List (String × Value)} :
    Integral (.obj fields) ↔ ∀ field ∈ fields, field.2.Integral :=
  ⟨fun | .obj h => h, .obj⟩

end Value

theorem Number.text_written {n : Int} (hlow : -0x8000000000000000 ≤ n)
    (hhigh : n < 0x10000000000000000) :
    Written (.value (.num (.int n))) (Number.text (.int n)).toList := by
  cases n with
  | ofNat n =>
      have htext : (Number.text (.int (.ofNat n))).toList = Nat.toDigits 10 n := Nat.toList_repr
      rw [htext]
      exact .nat (Int.ofNat_lt.mp hhigh)
  | negSucc n =>
      have htext : (Number.text (.int (.negSucc n))).toList = '-' :: Nat.toDigits 10 (n + 1) := by
        show ("-" ++ Nat.repr (n + 1)).toList = _
        simp
      rw [htext]
      exact .negative (Nat.succ_pos n) (by omega)

section Entries

variable {before behind : List Char} (textOf : Value → List Char)

theorem written_items (hbefore : Blanks before) (hbehind : Blanks behind) {items : List Value}
    (hsome : items ≠ []) (h : ∀ item ∈ items, Written (.value item) (textOf item)) :
    Written (.items items)
      ([','].intercalate (items.map fun item => before ++ textOf item) ++ behind ++ [']']) := by
  induction items with
  | nil => exact absurd rfl hsome
  | cons item rest ih =>
      have hitem := h item List.mem_cons_self
      cases rest with
      | nil => simpa using Written.lastItem hbefore hitem hbehind
      | cons next rest =>
          have hrest := ih (List.cons_ne_nil next rest) fun item hitem => h item (.tail _ hitem)
          simpa [List.intercalate_cons_cons] using Written.item hbefore hitem .nil hrest

theorem written_fields {gap : List Char} (hbefore : Blanks before) (hgap : Blanks gap)
    (hbehind : Blanks behind) {fields : List (String × Value)} (hsome : fields ≠ [])
    (h : ∀ field ∈ fields, Written (.value field.2) (textOf field.2)) :
    Written (.fields fields)
      ([','].intercalate (fields.map fun field =>
          before ++ ((quote field.1).toList ++ ':' :: gap ++ textOf field.2)) ++ behind ++
        ['\x7d']) := by
  induction fields with
  | nil => exact absurd rfl hsome
  | cons field rest ih =>
      have hfield := h field List.mem_cons_self
      cases rest with
      | nil => simpa using Written.lastField hbefore hgap hfield hbehind
      | cons next rest =>
          have hrest := ih (List.cons_ne_nil next rest) fun field hfield => h field (.tail _ hfield)
          simpa [List.intercalate_cons_cons] using Written.field hbefore hgap hfield .nil hrest

end Entries

namespace Value

theorem compactItems_eq_map (items : List Value) : compactItems items = items.map compact := by
  induction items with
  | nil => rfl
  | cons item rest ih => rw [compactItems, ih, List.map_cons]

theorem compactFields_eq_map (fields : List (String × Value)) :
    compactFields fields = fields.map fun field => quote field.1 ++ ":" ++ field.2.compact := by
  induction fields with
  | nil => rfl
  | cons field rest ih => rw [compactFields, ih, List.map_cons]

theorem prettyItems_eq_map (indent : String) (items : List Value) :
    prettyItems indent items = items.map (prettyAt indent) := by
  induction items with
  | nil => rfl
  | cons item rest ih => rw [prettyItems, ih, List.map_cons]

theorem prettyFields_eq_map (indent : String) (fields : List (String × Value)) :
    prettyFields indent fields =
      fields.map fun field => quote field.1 ++ ": " ++ prettyAt indent field.2 := by
  induction fields with
  | nil => rfl
  | cons field rest ih => rw [prettyFields, ih, List.map_cons]

theorem compact_written {value : Value} (h : value.Integral) :
    Written (.value value) value.compact.toList := by
  induction h with
  | null => exact .null
  | bool value => exact .bool value
  | int hlow hhigh => exact Number.text_written hlow hhigh
  | str content => exact .str content
  | @arr items _ ih =>
      by_cases hsome : items = []
      · subst hsome
        exact .noItems
      · have hitems := written_items (·.compact.toList) .nil .nil hsome ih
        simpa [compact, compactItems_eq_map, String.toList_intercalate, Function.comp_def]
          using hitems.someItems
  | @obj fields _ ih =>
      by_cases hsome : fields = []
      · subst hsome
        exact .noFields
      · have hfields := written_fields (·.compact.toList) .nil .nil .nil hsome ih
        simpa [compact, compactFields_eq_map, String.toList_intercalate, Function.comp_def]
          using hfields.someFields

/-- What stands behind every comma can be counted to what follows, if it stands before the first too.
-/
theorem intercalate_map_append (comma gap : List Char) (texts : List (List Char))
    (hsome : texts ≠ []) :
    comma.intercalate (texts.map (gap ++ ·)) = gap ++ (comma ++ gap).intercalate texts := by
  induction texts with
  | nil => exact absurd rfl hsome
  | cons text rest ih =>
      cases rest with
      | nil => simp
      | cons next rest =>
          have hrest := ih (List.cons_ne_nil next rest)
          simp only [List.map_cons, List.intercalate_cons_cons] at hrest ⊢
          simp [hrest]

theorem toList_block (opening closing indent : String) {items : List String} (hsome : items ≠ []) :
    (block opening closing indent items).toList =
      opening.toList ++
        ([','].intercalate (items.map fun item => '\n' :: (indent ++ "  ").toList ++ item.toList) ++
          '\n' :: indent.toList ++ closing.toList) := by
  have hjoin := intercalate_map_append [','] ['\n']
    (items.map fun item => (indent ++ "  ").toList ++ item.toList) (by simpa using hsome)
  simp only [List.map_map, Function.comp_def, List.singleton_append] at hjoin
  have hblock : block opening closing indent items =
      opening ++ "\n" ++ ",\n".intercalate (items.map fun item => indent ++ "  " ++ item) ++ "\n"
        ++ indent ++ closing := by
    simp [block, hsome]
  simp only [List.cons_append, hjoin]
  simp [hblock, String.toList_intercalate, Function.comp_def]

theorem blanks_deeper {indent : String} (h : Blanks indent.toList) :
    Blanks (indent ++ "  ").toList := by
  rw [String.toList_append]
  exact h.append (.cons rfl (.cons rfl .nil))

theorem prettyAt_written {value : Value} (h : value.Integral) {indent : String}
    (hindent : Blanks indent.toList) : Written (.value value) (prettyAt indent value).toList := by
  induction h generalizing indent with
  | null => exact .null
  | bool value => exact .bool value
  | int hlow hhigh => exact Number.text_written hlow hhigh
  | str content => exact .str content
  | @arr items _ ih =>
      by_cases hsome : items = []
      · subst hsome
        exact .noItems
      · have hinner := blanks_deeper hindent
        have hitems := written_items (fun item => (prettyAt (indent ++ "  ") item).toList)
          (hinner.cons (c := '\n') rfl) (hindent.cons (c := '\n') rfl) hsome
          fun item hitem => ih item hitem hinner
        rw [prettyAt, prettyItems_eq_map, toList_block _ _ _ (by simpa using hsome)]
        simpa [Function.comp_def] using hitems.someItems
  | @obj fields _ ih =>
      by_cases hsome : fields = []
      · subst hsome
        exact .noFields
      · have hinner := blanks_deeper hindent
        have hfields := written_fields (fun item => (prettyAt (indent ++ "  ") item).toList)
          (hinner.cons (c := '\n') rfl) (.cons (c := ' ') rfl .nil) (hindent.cons (c := '\n') rfl) hsome
          fun field hfield => ih field hfield hinner
        rw [prettyAt, prettyFields_eq_map, toList_block _ _ _ (by simpa using hsome)]
        simpa [Function.comp_def] using hfields.someFields

/-- What is written on one line is scanned to the value that was written. -/
theorem ofText_compact {value : Value} (h : value.Integral) :
    Scanned.ofText value.compact = (ofValue value, none) :=
  ofText_of_written (compact_written h)

/-- What is written over several lines is scanned to the value that was written. -/
theorem ofText_pretty {value : Value} (h : value.Integral) :
    Scanned.ofText value.pretty = (ofValue value, none) :=
  ofText_of_written (prettyAt_written h .nil)

end Value
end Json
end ActionAtlas
