import ActionAtlas.Json.Printer
import ActionAtlas.Json.Scanned
import Mathlib.Data.List.Basic

/-!
# Texts and numbers read back

A quoted text is scanned to the text that was quoted, and the digits of an integer to the integer, as
long as it fits a machine word. A text says itself where it ends. A number does not: it is told from
what follows by a blank, a comma or a closing bracket, or by the end.
-/

namespace ActionAtlas
namespace Json
namespace Scanned

/-! ## Texts -/

theorem hexValue?_hexDigit {n : Nat} (h : n < 16) : hexValue? (hexDigit n) = some n := by
  revert n
  decide

theorem hexFour_control {n : Nat} (h : n < 32) (rest : List Char) :
    hexFour ('0' :: '0' :: hexDigit (n / 16) :: hexDigit (n % 16) :: rest) = .ok (n, rest) := by
  have hzero : hexValue? '0' = some 0 := by decide
  have hhigh : hexValue? (hexDigit (n / 16)) = some (n / 16) := hexValue?_hexDigit (by omega)
  have hlow : hexValue? (hexDigit (n % 16)) = some (n % 16) := hexValue?_hexDigit (by omega)
  have hvalue : ((0 * 16 + 0) * 16 + n / 16) * 16 + n % 16 = n := by omega
  simp only [hexFour, hzero, hhigh, hlow, hvalue]

section Body

variable (fuel : Nat) (rest : List Char) (gathered : Gathered)

theorem textBody_plain {c : Char} (hquote : c ≠ '"') (hslash : c ≠ '\\') (hshown : 32 ≤ c.toNat) :
    textBody (fuel + 1) (c :: rest) gathered = textBody fuel rest (gathered.push c) := by
  rw [textBody]
  · rw [if_neg (Nat.not_lt.mpr hshown)]
  all_goals simp_all

theorem textBody_simple {c plain : Char} (hc : simpleEscape? c = some plain) :
    textBody (fuel + 1) ('\\' :: c :: rest) gathered = textBody fuel rest (gathered.push plain) := by
  rw [textBody]
  · rw [hc]
  · rintro rfl
    cases hc

theorem textBody_control {c : Char} (hcontrol : c.toNat < 32) :
    textBody (fuel + 1)
        ('\\' :: 'u' :: '0' :: '0' :: hexDigit (c.toNat / 16) :: hexDigit (c.toNat % 16) :: rest)
        gathered =
      textBody fuel rest (gathered.push c) := by
  have hlow : isLowSurrogate c.toNat = false := by
    simp [isLowSurrogate]
    omega
  have hhigh : isHighSurrogate c.toNat = false := by
    simp [isHighSurrogate]
    omega
  rw [textBody, hexFour_control hcontrol]
  simp [hlow, hhigh, Char.ofNat_toNat]

/-- However a character is escaped, one step reads it back. -/
theorem textBody_escapeChar (c : Char) :
    textBody (fuel + 1) (escapeChar c ++ rest) gathered = textBody fuel rest (gathered.push c) := by
  unfold escapeChar
  split
  · exact textBody_simple fuel rest gathered rfl
  · exact textBody_simple fuel rest gathered rfl
  · exact textBody_simple fuel rest gathered rfl
  · exact textBody_simple fuel rest gathered rfl
  · exact textBody_simple fuel rest gathered rfl
  · rename_i hquote hslash _ _ _
    split
    · rename_i hbackspace
      rw [← Char.ofNat_toNat c, hbackspace]
      exact textBody_simple fuel rest gathered rfl
    · split
      · rename_i hfeed
        rw [← Char.ofNat_toNat c, hfeed]
        exact textBody_simple fuel rest gathered rfl
      · split
        · rename_i hcontrol
          exact textBody_control fuel rest gathered hcontrol
        · rename_i hshown
          exact textBody_plain fuel rest gathered hquote hslash (Nat.le_of_not_lt hshown)

end Body

theorem textBody_escaped (characters read rest : List Char) {fuel : Nat}
    (hfuel : characters.length < fuel) :
    textBody fuel (characters.flatMap escapeChar ++ '"' :: rest) (.ok read) =
      .ok (.ok (characters.reverse ++ read), rest) := by
  induction characters generalizing fuel read with
  | nil =>
      obtain ⟨fuel, rfl⟩ := Nat.exists_eq_add_one.mpr hfuel
      rfl
  | cons c characters ih =>
      obtain ⟨fuel, rfl⟩ := Nat.exists_eq_add_one.mpr (Nat.zero_lt_of_lt hfuel)
      rw [List.flatMap_cons, List.append_assoc, textBody_escapeChar]
      have hrest := ih (c :: read) (Nat.lt_of_succ_lt_succ hfuel)
      simpa [Gathered.push, Except.map] using hrest

theorem escapeChar_ne_nil (c : Char) : escapeChar c ≠ [] := by
  unfold escapeChar
  repeat' split
  all_goals simp

theorem length_le_escaped (characters : List Char) :
    characters.length ≤ (characters.flatMap escapeChar).length := by
  induction characters with
  | nil => exact Nat.zero_le _
  | cons c characters ih =>
      have hpos := List.length_pos_iff.mpr (escapeChar_ne_nil c)
      rw [List.flatMap_cons, List.length_append, List.length_cons]
      omega

/-- What stands behind the opening quote of a quoted text is read up to the closing quote. -/
theorem text_escaped (content : String) (rest : List Char) :
    text (content.toList.flatMap escapeChar ++ '"' :: rest) = .ok (.ok content, rest) := by
  have hlength := length_le_escaped content.toList
  have hfuel : content.toList.length <
      (content.toList.flatMap escapeChar ++ '"' :: rest).length + 1 := by
    rw [List.length_append]
    omega
  rw [text, textBody_escaped _ _ _ hfuel]
  simp [Except.map]

/-! ## Numbers -/

/-- What can stand behind a value: nothing, a blank, a comma or a closing bracket. -/
def endsValue : List Char → Bool
  | [] => true
  | c :: _ => isBlank c || c == ',' || c == ']' || c == '\x7d'

/-- Nothing that ends a value could go on with a number. -/
theorem not_number_of_ends {c : Char} {rest : List Char} (h : endsValue (c :: rest) = true) :
    isDigit c = false ∧ c ≠ '.' ∧ c ≠ 'e' ∧ c ≠ 'E' := by
  simp only [endsValue, isBlank, Bool.or_eq_true, beq_iff_eq, or_assoc] at h
  rcases h with rfl | rfl | rfl | rfl | rfl | rfl | rfl <;> decide

theorem isDigit_of_mem_toDigits {n : Nat} {c : Char} (h : c ∈ Nat.toDigits 10 n) :
    isDigit c = true :=
  Nat.isDigit_of_mem_toDigits (by decide) (by decide) h

theorem foldl_toDigits (n : Nat) :
    (Nat.toDigits 10 n).foldl (fun n c => n * 10 + digitValue c) 0 = n := by
  have hvalue : Nat.ofDigitChars 10 (Nat.toDigits 10 n) 0 = n := Nat.ofDigitChars_ten_toDigits
  rw [Nat.ofDigitChars_eq_foldl] at hvalue
  simpa [Nat.mul_comm, digitValue] using hvalue

theorem digitChar_ne_zero : ∀ n < 10, 0 < n → Nat.digitChar n ≠ '0' := by
  decide

theorem toDigits_head {n : Nat} (h : 0 < n) :
    ∃ c more, Nat.toDigits 10 n = c :: more ∧ c ≠ '0' := by
  induction n using Nat.strongRecOn with
  | ind n ih =>
      by_cases hsmall : n < 10
      · exact ⟨n.digitChar, [], Nat.toDigits_of_lt_base hsmall, digitChar_ne_zero n hsmall h⟩
      · obtain ⟨c, more, hdigits, hc⟩ := ih (n / 10) (by omega) (by omega)
        rw [Nat.toDigits_of_base_le (by decide) (by omega), hdigits]
        exact ⟨c, _, rfl, hc⟩

theorem numberTail_ends (negative : Bool) (digits : List Char) {rest : List Char}
    (hends : endsValue rest = true) :
    numberTail negative digits rest = (.number (whole negative digits), some rest) := by
  cases rest with
  | nil => rfl
  | cons c rest =>
      obtain ⟨_, hpoint, hlower, hupper⟩ := not_number_of_ends hends
      unfold numberTail
      split <;> simp_all

theorem span_digits {digits rest : List Char} (hdigits : ∀ c ∈ digits, isDigit c = true)
    (hends : endsValue rest = true) :
    (digits ++ rest).takeWhile isDigit = digits ∧ (digits ++ rest).dropWhile isDigit = rest := by
  rw [List.takeWhile_append_of_pos hdigits, List.dropWhile_append_of_pos hdigits]
  cases rest with
  | nil => simp
  | cons c rest => simp [(not_number_of_ends hends).1]

theorem signedNumber_toDigits (negative : Bool) (n : Nat) {rest : List Char}
    (hends : endsValue rest = true) :
    signedNumber negative (Nat.toDigits 10 n ++ rest) =
      (.number (whole negative (Nat.toDigits 10 n)), some rest) := by
  rcases Nat.eq_zero_or_pos n with rfl | hpos
  · cases rest with
    | nil => rfl
    | cons c rest =>
        have hnumber := numberTail_ends negative ['0'] hends
        simpa [signedNumber, (not_number_of_ends hends).1] using hnumber
  · obtain ⟨c, more, hdigits, hc⟩ := toDigits_head hpos
    have hall : ∀ d ∈ c :: more, isDigit d = true :=
      fun d hd => isDigit_of_mem_toDigits (hdigits ▸ hd)
    obtain ⟨htake, hdrop⟩ := span_digits hall hends
    rw [hdigits, List.cons_append, signedNumber]
    · rw [if_pos (hall c List.mem_cons_self), ← List.cons_append, htake, hdrop,
        numberTail_ends negative _ hends]
    · exact hc

theorem whole_toDigits {n : Nat} (h : n < wordLimit) :
    whole false (Nat.toDigits 10 n) = .ok (.int n) := by
  simp [whole, foldl_toDigits, h]

theorem whole_negative_toDigits {n : Nat} (hpos : 0 < n) (h : n ≤ 0x8000000000000000) :
    whole true (Nat.toDigits 10 n) = .ok (.int (-n)) := by
  simp [whole, foldl_toDigits, hpos, h]

end Scanned
end Json
end ActionAtlas
