import DualStack.Proofs.Numeral
import Mathlib.Data.List.Forall2
import Mathlib.Data.List.Induction
import Mathlib.Data.Nat.Digits.Defs

/-!
# The grammar of numerals

A text is taken apart without reading a digit (`Parts.ofText`): its opening chooses the form, and
behind the opening there may be a sign. What is left are the digits. `Spells` says which number a
row of digits stands for, in the positional notation of `Nat.ofDigits`.

From its parts one can tell whether a text is a numeral and of which number (`Parts.Denotes`), and
whether some of its digits, from the first on, already spell a number out of range
(`Parts.Overflows`). `read_follows_grammar` shows that reading decides exactly this, and that it
reports the error that belongs to the parts. Other digits in the place of those of a text leave its
opening and its sign as they are (`Parts.exists_ofText`), and so zeros in front of the digits never
matter.
-/

set_option autoImplicit false
set_option relaxedAutoImplicit false

namespace DualStack.Numeral

/-! ### Digits -/

/-- A character is the digit of base `radix` with a given value, in either case. -/
def IsDigit (radix : Nat) (character : Char) (digit : Nat) : Prop :=
  digit < radix ∧ (character = digit.digitChar ∨ character = digit.digitChar.toUpper)

/-- A row of digits spells a number. `Nat.ofDigits` takes the digits from the last to the first. -/
def Spells (radix : Nat) (text : List Char) (value : Nat) : Prop :=
  ∃ digits : List Nat, List.Forall₂ (IsDigit radix) text.reverse digits ∧
    value = Nat.ofDigits radix digits

section Digits

variable {radix limit value : Nat} {overflow : Error} {text : List Char}

/-- A character whose number is known is the character of that number. -/
theorem eq_of_toNat {character other : Char} (hsame : character.toNat = other.toNat) :
    character = other := by
  rw [← Char.ofNat_toNat character, hsame, Char.ofNat_toNat]

/-- The digits below sixteen are those of the hexadecimal base, in either case. -/
theorem eq_digitChar_of_digitValue? {character : Char} {digit : Nat}
    (hvalue : digitValue? character = some digit) (hsmall : digit < 16) :
    character = digit.digitChar ∨ character = digit.digitChar.toUpper := by
  have hdecimal : ∀ value < 10, value.digitChar.toNat = value + 48 := by decide
  have hlower : ∀ value < 16, 10 ≤ value → value.digitChar.toNat = value + 87 := by decide
  have hupper : ∀ value < 16, 10 ≤ value → value.digitChar.toUpper.toNat = value + 55 := by decide
  have htoNat (first last : Char) :
      (decide (first ≤ character) && decide (character ≤ last)) = true ↔
        first.toNat ≤ character.toNat ∧ character.toNat ≤ last.toNat := by
    rw [Bool.and_eq_true, decide_eq_true_iff, decide_eq_true_iff]
    exact Iff.rfl
  simp only [digitValue?, htoNat, Char.reduceToNat] at hvalue
  split_ifs at hvalue with hdigit hsmallLetter hlargeLetter
  · obtain rfl := Option.some.inj hvalue
    left
    apply eq_of_toNat
    rw [hdecimal _ (by omega)]
    omega
  · obtain rfl := Option.some.inj hvalue
    left
    apply eq_of_toNat
    rw [hlower _ hsmall (by omega)]
    omega
  · obtain rfl := Option.some.inj hvalue
    right
    apply eq_of_toNat
    rw [hupper _ hsmall (by omega)]
    omega

theorem digit?_eq_some_iff (hradix : radix ≤ 16) {character : Char} {digit : Nat} :
    digit? radix character = some digit ↔ IsDigit radix character digit := by
  have hlower : ∀ value < 16, digitValue? value.digitChar = some value := by decide
  have hupper : ∀ value < 16, digitValue? value.digitChar.toUpper = some value := by decide
  rw [digit?, Option.filter_eq_some_iff, decide_eq_true_iff]
  constructor
  · rintro ⟨hvalue, hless⟩
    exact ⟨hless, eq_digitChar_of_digitValue? hvalue (by omega)⟩
  · rintro ⟨hless, rfl | rfl⟩
    · exact ⟨hlower digit (by omega), hless⟩
    · exact ⟨hupper digit (by omega), hless⟩

@[simp] theorem spells_nil_iff : Spells radix [] value ↔ value = 0 := by
  simp [Spells]

/-- One digit more multiplies the number by the base. -/
theorem spells_append_singleton_iff {character : Char} :
    Spells radix (text ++ [character]) value ↔
      ∃ digit before, IsDigit radix character digit ∧ Spells radix text before ∧
        value = before * radix + digit := by
  simp only [Spells, List.reverse_append, List.reverse_singleton, List.singleton_append,
    List.forall₂_cons_left_iff]
  constructor
  · rintro ⟨_, ⟨digit, rest, hdigit, hrest, rfl⟩, rfl⟩
    refine ⟨digit, _, hdigit, ⟨rest, hrest, rfl⟩, ?_⟩
    rw [Nat.ofDigits_cons, Nat.mul_comm, Nat.add_comm]
  · rintro ⟨digit, _, hdigit, ⟨rest, hrest, rfl⟩, rfl⟩
    refine ⟨digit :: rest, ⟨digit, rest, hdigit, hrest, rfl⟩, ?_⟩
    rw [Nat.ofDigits_cons, Nat.mul_comm, Nat.add_comm]

/-- A row of characters that spells a number consists of digits. -/
theorem Spells.exists_isDigit (hspells : Spells radix text value) {character : Char}
    (hmem : character ∈ text) : ∃ digit, IsDigit radix character digit := by
  induction text using List.reverseRecOn generalizing value with
  | nil => simp at hmem
  | append_singleton text last ih =>
    obtain ⟨digit, before, hdigit, hbefore, -⟩ := spells_append_singleton_iff.mp hspells
    rcases List.mem_append.mp hmem with hmem | hmem
    · exact ih hbefore hmem
    · obtain rfl : character = last := by simpa using hmem
      exact ⟨digit, hdigit⟩

/-- Zeros in front do not change the number. -/
theorem Spells.leading_zeros (hspells : Spells radix text value) (hradix : 0 < radix)
    (count : Nat) : Spells radix (List.replicate count '0' ++ text) value := by
  obtain ⟨values, hvalues, rfl⟩ := hspells
  have hzeros : List.Forall₂ (IsDigit radix) (List.replicate count '0')
      (List.replicate count 0) := by
    rw [← List.map_replicate (f := fun _ : Char ↦ 0), List.forall₂_map_right_iff,
      List.forall₂_same]
    intro character hcharacter
    rw [List.eq_of_mem_replicate hcharacter]
    exact ⟨hradix, .inl rfl⟩
  refine ⟨values ++ List.replicate count 0, ?_, (Nat.ofDigits_append_replicate_zero values).symm⟩
  rw [List.reverse_append, List.reverse_replicate]
  exact List.rel_append hvalues hzeros

/-! ### Reading digits -/

/-- Some digits, from the first on, spell a number out of range. -/
def Overflows (radix limit : Nat) (text : List Char) : Prop :=
  ∃ front, front <+: text ∧ ∃ value, Spells radix front value ∧ limit < value

theorem bind_eq_ok_iff {first : Except Error Nat} {second : Nat → Except Error Nat} :
    first.bind second = .ok value ↔
      ∃ before, first = .ok before ∧ second before = .ok value := by
  cases first <;> simp [Except.bind]

theorem bind_eq_error_iff {first : Except Error Nat} {second : Nat → Except Error Nat}
    {error : Error} :
    first.bind second = .error error ↔
      first = .error error ∨ ∃ before, first = .ok before ∧ second before = .error error := by
  cases first <;> simp [Except.bind]

theorem magnitude_singleton_eq_ok_iff (hradix : radix ≤ 16) {before : Nat} {character : Char} :
    magnitude radix limit overflow before [character] = .ok value ↔
      ∃ digit, IsDigit radix character digit ∧ value = before * radix + digit ∧ value ≤ limit := by
  simp only [← digit?_eq_some_iff hradix, magnitude]
  cases digit? radix character with
  | none => simp
  | some digit =>
    by_cases hle : before * radix + digit ≤ limit
    · simp only [hle, if_true, Except.ok.injEq, Option.some.injEq, exists_eq_left']
      exact ⟨fun hvalue ↦ ⟨hvalue.symm, hvalue ▸ hle⟩, fun hvalue ↦ hvalue.1.symm⟩
    · simp only [hle, if_false, reduceCtorEq, Option.some.injEq, exists_eq_left', false_iff]
      rintro ⟨rfl, hvalue⟩
      exact hle hvalue

theorem magnitude_singleton_eq_overflow_iff (hradix : radix ≤ 16)
    (hoverflow : overflow ≠ .invalidDigit) {before : Nat} {character : Char} :
    magnitude radix limit overflow before [character] = .error overflow ↔
      ∃ digit, IsDigit radix character digit ∧ limit < before * radix + digit := by
  simp only [← digit?_eq_some_iff hradix, magnitude]
  cases digit? radix character with
  | none => simp [hoverflow.symm]
  | some digit =>
    by_cases hle : before * radix + digit ≤ limit
    · simp [hle]
    · simp [hle, Nat.lt_of_not_le hle]

/-- Digits are read as the number that they spell, if it is in range. -/
theorem magnitude_eq_ok_iff (hradix : radix ≤ 16) (hpositive : 0 < radix) :
    magnitude radix limit overflow 0 text = .ok value ↔
      Spells radix text value ∧ value ≤ limit := by
  induction text using List.reverseRecOn generalizing value with
  | nil =>
    simp only [magnitude, Except.ok.injEq, spells_nil_iff]
    omega
  | append_singleton text character ih =>
    rw [magnitude_append, bind_eq_ok_iff, spells_append_singleton_iff]
    simp only [ih, magnitude_singleton_eq_ok_iff hradix]
    constructor
    · rintro ⟨before, ⟨hspells, -⟩, digit, hdigit, rfl, hle⟩
      exact ⟨⟨digit, before, hdigit, hspells, rfl⟩, hle⟩
    · rintro ⟨⟨digit, before, hdigit, hspells, rfl⟩, hle⟩
      have hbefore : before ≤ before * radix := Nat.le_mul_of_pos_right before hpositive
      exact ⟨before, ⟨hspells, by omega⟩, digit, hdigit, rfl, hle⟩

/-- The number of some digits, from the first on, is found to be out of range before any character
behind them is looked at. -/
theorem magnitude_eq_overflow_iff (hradix : radix ≤ 16) (hpositive : 0 < radix)
    (hoverflow : overflow ≠ .invalidDigit) :
    magnitude radix limit overflow 0 text = .error overflow ↔ Overflows radix limit text := by
  induction text using List.reverseRecOn with
  | nil => simp [magnitude, Overflows]
  | append_singleton text character ih =>
    rw [magnitude_append, bind_eq_error_iff, ih]
    simp only [magnitude_eq_ok_iff hradix hpositive,
      magnitude_singleton_eq_overflow_iff hradix hoverflow]
    constructor
    · rintro (⟨front, hfront, hspelled⟩ | ⟨before, ⟨hspells, -⟩, digit, hdigit, hlt⟩)
      · exact ⟨front, hfront.trans (List.prefix_append text [character]), hspelled⟩
      · exact ⟨_, List.prefix_rfl, _,
          spells_append_singleton_iff.mpr ⟨digit, before, hdigit, hspells, rfl⟩, hlt⟩
    · rintro ⟨front, hfront, value, hspells, hlt⟩
      rcases List.prefix_concat_iff.mp hfront with rfl | hfront
      · obtain ⟨digit, before, hdigit, hbefore, rfl⟩ := spells_append_singleton_iff.mp hspells
        by_cases hle : before ≤ limit
        · exact .inr ⟨before, ⟨hbefore, hle⟩, digit, hdigit, hlt⟩
        · exact .inl ⟨text, List.prefix_rfl, before, hbefore, Nat.lt_of_not_le hle⟩
      · exact .inl ⟨front, hfront, value, hspells, hlt⟩

theorem eq_of_magnitude_eq_error {before : Nat} {error : Error}
    (herror : magnitude radix limit overflow before text = .error error) :
    error = overflow ∨ error = .invalidDigit := by
  induction text generalizing before with
  | nil => simp [magnitude] at herror
  | cons character text ih =>
    unfold magnitude at herror
    split at herror
    · exact .inr (Except.error.inj herror).symm
    · split at herror
      · exact ih herror
      · exact .inl (Except.error.inj herror).symm

theorem digits_eq_ok_iff (hradix : radix ≤ 16) (hpositive : 0 < radix) :
    digits radix limit overflow text = .ok value ↔
      text ≠ [] ∧ Spells radix text value ∧ value ≤ limit := by
  cases text with
  | nil => simp [digits]
  | cons character text =>
    rw [digits_of_ne_nil (List.cons_ne_nil character text), magnitude_eq_ok_iff hradix hpositive]
    simp

theorem digits_eq_overflow_iff (hradix : radix ≤ 16) (hpositive : 0 < radix)
    (hoverflow : overflow ≠ .invalidDigit) :
    digits radix limit overflow text = .error overflow ↔ Overflows radix limit text := by
  cases text with
  | nil => simp [digits, Overflows, hoverflow.symm]
  | cons character text =>
    rw [digits_of_ne_nil (List.cons_ne_nil character text)]
    exact magnitude_eq_overflow_iff hradix hpositive hoverflow

theorem eq_of_digits_eq_error {error : Error}
    (herror : digits radix limit overflow text = .error error) :
    error = overflow ∨ error = .invalidDigit := by
  cases text with
  | nil => exact .inr (Except.error.inj herror).symm
  | cons character text => exact eq_of_magnitude_eq_error herror

end Digits

/-! ### The parts of a text -/

/-- The form of a numeral. -/
inductive Form
  | binary
  | hexadecimal
  | decimal
  deriving DecidableEq, Repr

namespace Form

/-- The base of the digits of a form. -/
def radix : Form → Nat
  | binary => 2
  | hexadecimal => 16
  | decimal => 10

/-- The form that the opening of a text chooses, and the text behind the opening. -/
def ofOpening (text : List Char) : Form × List Char :=
  if ['B'] <+: text then (binary, text.drop 1)
  else if ['0', 'X'] <+: text then (hexadecimal, text.drop 2)
  else if ['X'] <+: text then (hexadecimal, text.drop 1)
  else (decimal, text)

/-- Reads what is behind the opening. -/
def read (body : List Char) : Form → Except Error Int
  | binary => Numeral.pattern 2 body
  | hexadecimal => Numeral.pattern 16 body
  | decimal => Numeral.decimal body

theorem radix_bounds (form : Form) : 0 < form.radix ∧ form.radix ≤ 16 := by
  cases form <;> decide

end Form

/-- What a text consists of. -/
structure Parts where
  form : Form
  /-- All that follows the opening. -/
  body : List Char
  /-- Whether the body begins with a minus sign. -/
  negative : Bool
  /-- All that follows the sign if there is one. -/
  digits : List Char
  deriving DecidableEq, Repr

namespace Parts

/-- The parts of a text of a given form behind its opening. Only a decimal number can have a minus
sign. -/
def ofBody (form : Form) (body : List Char) : Parts :=
  if ['+'] <+: body then ⟨form, body, false, body.drop 1⟩
  else if form = .decimal ∧ ['-'] <+: body then ⟨form, body, true, body.drop 1⟩
  else ⟨form, body, false, body⟩

/-- The parts of a text. -/
def ofText (text : String) : Parts :=
  ofBody (Form.ofOpening text.toList).1 (Form.ofOpening text.toList).2

/-- The largest number that the digits may spell. -/
def limit (parts : Parts) : Nat :=
  match parts.form, parts.negative with
  | .decimal, false => 2 ^ 31 - 1
  | .decimal, true => 2 ^ 31
  | _, _ => 2 ^ 32 - 1

/-- The number that a text stands for whose digits spell a given number. -/
def number (parts : Parts) (spelled : Nat) : Int :=
  match parts.form with
  | .decimal => if parts.negative then -spelled else spelled
  | _ => (BitVec.ofNat 32 spelled).toInt

/-- The error of digits that spell a number out of range. -/
def overflow (parts : Parts) : Error := if parts.negative then .tooSmall else .tooLarge

/-- What reading the digits of a text comes to. -/
def read (parts : Parts) : Except Error Int :=
  (Numeral.digits parts.form.radix parts.limit parts.overflow parts.digits).map parts.number

/-- A text is a numeral and stands for a given number. -/
def Denotes (parts : Parts) (value : Int) : Prop :=
  parts.digits ≠ [] ∧ ∃ spelled ≤ parts.limit,
    Spells parts.form.radix parts.digits spelled ∧ value = parts.number spelled

/-- Some digits of a text, from the first on, spell a number out of range. -/
def Overflows (parts : Parts) : Prop :=
  Numeral.Overflows parts.form.radix parts.limit parts.digits

end Parts

/-! ### Reading the parts -/

theorem ofBits_eq (bits : Nat) : ofBits bits = (BitVec.ofNat 32 bits).toInt := by
  have hpower : (2 : Nat) ^ 32 = 0x100000000 := by decide
  rw [BitVec.toInt_eq_toNat_bmod, BitVec.toNat_ofNat, hpower, Int.natCast_emod, Int.emod_bmod]
  rfl

/-- The opening of a text chooses how it is read. -/
theorem readChars_eq (text : List Char) :
    readChars text = (Form.ofOpening text).1.read (Form.ofOpening text).2 := by
  unfold readChars
  split
  case h_1 rest => simp [Form.ofOpening, Form.read]
  case h_2 rest => simp [Form.ofOpening, Form.read]
  case h_3 rest => simp [Form.ofOpening, Form.read]
  case h_4 hbinary hzero hhexadecimal =>
    have hnot : ¬ ['B'] <+: text ∧ ¬ ['0', 'X'] <+: text ∧ ¬ ['X'] <+: text := by
      refine ⟨?_, ?_, ?_⟩
      · rintro ⟨rest, rfl⟩
        exact hbinary rest rfl
      · rintro ⟨rest, rfl⟩
        exact hzero rest rfl
      · rintro ⟨rest, rfl⟩
        exact hhexadecimal rest rfl
    simp [Form.ofOpening, Form.read, hnot]

namespace Parts

variable {body digits : List Char}

@[simp] theorem body_ofBody (form : Form) : (ofBody form body).body = body := by
  unfold ofBody
  split_ifs <;> rfl

@[simp] theorem form_ofBody (form : Form) : (ofBody form body).form = form := by
  unfold ofBody
  split_ifs <;> rfl

theorem read_pattern {form : Form} (hform : form ≠ .decimal) :
    read ⟨form, body, false, digits⟩ =
      (Numeral.digits form.radix 0xFFFFFFFF .tooLarge digits).map ofBits := by
  have hbits : ofBits = fun spelled ↦ (BitVec.ofNat 32 spelled).toInt := funext ofBits_eq
  rw [hbits]
  cases form with
  | binary => rfl
  | hexadecimal => rfl
  | decimal => exact absurd rfl hform

theorem read_unsigned :
    read ⟨.decimal, body, false, digits⟩ =
      (Numeral.digits 10 0x7FFFFFFF .tooLarge digits).map Int.ofNat := rfl

end Parts

/-- A text ends behind its opening, or a sign and digits follow. -/
theorem Form.read_eq (form : Form) (body : List Char) :
    form.read body =
      if body = [] then .error .empty else (Parts.ofBody form body).read := by
  cases body with
  | nil => cases form <;> rfl
  | cons first rest =>
    rw [if_neg (List.cons_ne_nil first rest)]
    by_cases hplus : first = '+'
    · subst hplus
      have hparts : Parts.ofBody form ('+' :: rest) = ⟨form, '+' :: rest, false, rest⟩ := by
        simp [Parts.ofBody]
      rw [hparts]
      cases form with
      | decimal => rfl
      | binary | hexadecimal =>
        rw [Parts.read_pattern (by decide)]
        rfl
    · by_cases hminus : form = .decimal ∧ first = '-'
      · obtain ⟨rfl, rfl⟩ := hminus
        have hparts : Parts.ofBody .decimal ('-' :: rest) =
            ⟨.decimal, '-' :: rest, true, rest⟩ := by
          simp [Parts.ofBody]
        rw [hparts]
        rfl
      · have hparts : Parts.ofBody form (first :: rest) =
            ⟨form, first :: rest, false, first :: rest⟩ := by
          simp_all [Parts.ofBody, eq_comm]
        rw [hparts]
        cases form with
        | decimal =>
          rw [Parts.read_unsigned]
          simp_all [read, Numeral.decimal]
        | binary | hexadecimal =>
          rw [Parts.read_pattern (by decide)]
          simp [read, pattern, hplus, radix]

/-- Reading a text is reading its parts. -/
theorem read_eq (text : String) :
    read text =
      if (Parts.ofText text).body = [] then .error .empty else (Parts.ofText text).read := by
  rw [read, readChars_eq, Form.read_eq, Parts.ofText, Parts.body_ofBody]

/-! ### The grammar -/

namespace Parts

variable {parts : Parts}

theorem overflow_eq_tooLarge_iff : parts.overflow = .tooLarge ↔ parts.negative = false := by
  cases hsign : parts.negative <;> simp [overflow, hsign]

theorem overflow_eq_tooSmall_iff : parts.overflow = .tooSmall ↔ parts.negative = true := by
  cases hsign : parts.negative <;> simp [overflow, hsign]

theorem overflow_ne_invalidDigit : parts.overflow ≠ .invalidDigit := by
  cases hsign : parts.negative <;> simp [overflow, hsign]

theorem overflow_ne_empty : parts.overflow ≠ .empty := by
  cases hsign : parts.negative <;> simp [overflow, hsign]

theorem read_eq_ok_iff {value : Int} : parts.read = .ok value ↔ parts.Denotes value := by
  obtain ⟨hpositive, hradix⟩ := parts.form.radix_bounds
  constructor
  · intro hread
    obtain ⟨spelled, hdigits, rfl⟩ := map_eq_ok hread
    obtain ⟨hnonempty, hspells, hle⟩ := (digits_eq_ok_iff hradix hpositive).mp hdigits
    exact ⟨hnonempty, spelled, hle, hspells, rfl⟩
  · rintro ⟨hnonempty, spelled, hle, hspells, rfl⟩
    rw [read, (digits_eq_ok_iff hradix hpositive).mpr ⟨hnonempty, hspells, hle⟩]
    rfl

/-- Reading the digits fails for their size or because one of them is no digit. -/
theorem read_eq_error_iff {error : Error} (hvalid : error ≠ .invalidDigit) :
    parts.read = .error error ↔ error = parts.overflow ∧ parts.Overflows := by
  obtain ⟨hpositive, hradix⟩ := parts.form.radix_bounds
  have hmap : parts.read = .error error ↔
      Numeral.digits parts.form.radix parts.limit parts.overflow parts.digits = .error error := by
    unfold read
    cases Numeral.digits parts.form.radix parts.limit parts.overflow parts.digits <;>
      simp [Except.map]
  have hoverflows : Numeral.digits parts.form.radix parts.limit parts.overflow parts.digits =
      .error parts.overflow ↔ parts.Overflows :=
    digits_eq_overflow_iff hradix hpositive parts.overflow_ne_invalidDigit
  rw [hmap]
  constructor
  · intro herror
    obtain rfl := (eq_of_digits_eq_error herror).resolve_right hvalid
    exact ⟨rfl, hoverflows.mp herror⟩
  · rintro ⟨rfl, hover⟩
    exact hoverflows.mpr hover

/-- Zeros in front of the digits do not matter. -/
theorem Denotes.leading_zeros {value : Int} (hdenotes : parts.Denotes value) (count : Nat) :
    { parts with digits := List.replicate count '0' ++ parts.digits }.Denotes value := by
  obtain ⟨hnonempty, spelled, hle, hspells, rfl⟩ := hdenotes
  exact ⟨List.append_ne_nil_of_right_ne_nil _ hnonempty, spelled, hle,
    hspells.leading_zeros parts.form.radix_bounds.1 count, rfl⟩

end Parts

/-! ### Other digits in the place of those of a text -/

theorem IsDigit.ne_sign {radix digit : Nat} {character : Char} (hradix : radix ≤ 16)
    (hdigit : IsDigit radix character digit) : character ≠ '+' ∧ character ≠ '-' := by
  have hplus : digitValue? '+' = none := by decide
  have hminus : digitValue? '-' = none := by decide
  rw [← digit?_eq_some_iff hradix] at hdigit
  constructor
  · rintro rfl
    simp [digit?, hplus] at hdigit
  · rintro rfl
    simp [digit?, hminus] at hdigit

theorem IsDigit.ne_opening {digit : Nat} {character : Char}
    (hdigit : IsDigit 10 character digit) : character ≠ 'B' ∧ character ≠ 'X' := by
  have hbinary : digit? 10 'B' = none := by decide
  have hhexadecimal : digit? 10 'X' = none := by decide
  rw [← digit?_eq_some_iff (by decide)] at hdigit
  constructor
  · rintro rfl
    simp [hbinary] at hdigit
  · rintro rfl
    simp [hhexadecimal] at hdigit

theorem Form.ofOpening_of_ne {text : List Char}
    (hne : ∀ character ∈ text, character ≠ 'B' ∧ character ≠ 'X') :
    ofOpening text = (decimal, text) := by
  have hnot : ¬ ['B'] <+: text ∧ ¬ ['0', 'X'] <+: text ∧ ¬ ['X'] <+: text := by
    refine ⟨fun hfirst ↦ ?_, fun hfirst ↦ ?_, fun hfirst ↦ ?_⟩
    · exact (hne 'B' (hfirst.subset (by simp))).1 rfl
    · exact (hne 'X' (hfirst.subset (by simp))).2 rfl
    · exact (hne 'X' (hfirst.subset (by simp))).2 rfl
  simp [ofOpening, hnot]

/-- What follows the opening of a text can be exchanged. -/
theorem Form.exists_opening (text : List Char) :
    ∃ opening, text = opening ++ (ofOpening text).2 ∧
      ∀ body, ((ofOpening text).1 = decimal →
          ∀ character ∈ body, character ≠ 'B' ∧ character ≠ 'X') →
        ofOpening (opening ++ body) = ((ofOpening text).1, body) := by
  by_cases hbinary : ['B'] <+: text
  · obtain ⟨rest, rfl⟩ := hbinary
    exact ⟨['B'], by simp [ofOpening], by simp [ofOpening]⟩
  by_cases hzero : ['0', 'X'] <+: text
  · obtain ⟨rest, rfl⟩ := hzero
    exact ⟨['0', 'X'], by simp [ofOpening], by simp [ofOpening]⟩
  by_cases hhexadecimal : ['X'] <+: text
  · obtain ⟨rest, rfl⟩ := hhexadecimal
    exact ⟨['X'], by simp [ofOpening], by simp [ofOpening]⟩
  have hdecimal : ofOpening text = (decimal, text) := by
    simp [ofOpening, hbinary, hzero, hhexadecimal]
  rw [hdecimal]
  exact ⟨[], rfl, fun body hbody ↦ ofOpening_of_ne (hbody rfl)⟩

/-- What follows the sign can be exchanged. -/
theorem Parts.exists_sign (form : Form) (body : List Char) :
    ∃ sign, body = sign ++ (ofBody form body).digits ∧
      (∀ character ∈ sign, character ≠ 'B' ∧ character ≠ 'X') ∧
      ∀ digits, (∀ character ∈ digits, character ≠ '+' ∧ character ≠ '-') →
        ofBody form (sign ++ digits) =
          { ofBody form body with body := sign ++ digits, digits := digits } := by
  by_cases hplus : ['+'] <+: body
  · obtain ⟨rest, rfl⟩ := hplus
    exact ⟨['+'], by simp [ofBody], by simp [ofBody]⟩
  by_cases hminus : form = .decimal ∧ ['-'] <+: body
  · obtain ⟨rfl, rest, rfl⟩ := hminus
    exact ⟨['-'], by simp [ofBody], by simp [ofBody]⟩
  have hunsigned : ofBody form body = ⟨form, body, false, body⟩ := by
    simp [ofBody, hplus, hminus]
  rw [hunsigned]
  refine ⟨[], rfl, by simp, fun digits hne ↦ ?_⟩
  have hnot : ¬ ['+'] <+: digits ∧ ¬ ['-'] <+: digits := by
    refine ⟨fun hfirst ↦ ?_, fun hfirst ↦ ?_⟩
    · exact (hne '+' (hfirst.subset (by simp))).1 rfl
    · exact (hne '-' (hfirst.subset (by simp))).2 rfl
  simp [ofBody, hnot]

/-- The digits of a text can be exchanged for other digits. -/
theorem Parts.exists_ofText (text : String) :
    ∃ opening, text.toList = opening ++ (ofText text).digits ∧
      ∀ digits, (∀ character ∈ digits, ∃ digit, IsDigit (ofText text).form.radix character digit) →
        ∃ body, ofText (String.ofList (opening ++ digits)) =
          { ofText text with body := body, digits := digits } := by
  obtain ⟨opening, hopening, hopened⟩ := Form.exists_opening text.toList
  obtain ⟨sign, hsign, hnoopening, hsigned⟩ :=
    exists_sign (Form.ofOpening text.toList).1 (Form.ofOpening text.toList).2
  have hform : (ofText text).form = (Form.ofOpening text.toList).1 := form_ofBody _
  refine ⟨opening ++ sign, ?_, fun digits hdigits ↦ ⟨sign ++ digits, ?_⟩⟩
  · rw [List.append_assoc, ofText, ← hsign, ← hopening]
  · have hnosign : ∀ character ∈ digits, character ≠ '+' ∧ character ≠ '-' := by
      intro character hmem
      obtain ⟨digit, hdigit⟩ := hdigits character hmem
      exact hdigit.ne_sign (ofText text).form.radix_bounds.2
    have hdecimal : (Form.ofOpening text.toList).1 = .decimal →
        ∀ character ∈ digits, character ≠ 'B' ∧ character ≠ 'X' := by
      intro hdecimal character hmem
      rw [hform, hdecimal] at hdigits
      obtain ⟨digit, hdigit⟩ := hdigits character hmem
      exact hdigit.ne_opening
    rw [ofText, String.toList_ofList, List.append_assoc,
      hopened _ fun hform ↦ List.forall_mem_append.mpr ⟨hnoopening, hdecimal hform⟩,
      hsigned digits hnosign, ofText]

/-! ### What reading comes to -/

/-- What reading a text comes to, told by its parts. -/
structure FollowsGrammar (parts : Parts) (outcome : Except Error Int) : Prop where
  ok_iff : ∀ value, outcome = .ok value ↔ parts.Denotes value
  empty_iff : outcome = .error .empty ↔ parts.body = []
  tooLarge_iff : outcome = .error .tooLarge ↔ parts.negative = false ∧ parts.Overflows
  tooSmall_iff : outcome = .error .tooSmall ↔ parts.negative = true ∧ parts.Overflows
  /-- The error in all other cases. -/
  invalidDigit_iff : outcome = .error .invalidDigit ↔
    parts.body ≠ [] ∧ ¬ parts.Overflows ∧ ∀ value, ¬ parts.Denotes value

theorem followsGrammar_nil (form : Form) :
    FollowsGrammar (Parts.ofBody form []) (.error .empty) := by
  have hparts : Parts.ofBody form [] = ⟨form, [], false, []⟩ := by cases form <;> rfl
  have hdenotes : ∀ value, ¬ Parts.Denotes ⟨form, [], false, []⟩ value :=
    fun value hdenotes ↦ hdenotes.1 rfl
  have hoverflows : ¬ Parts.Overflows ⟨form, [], false, []⟩ := by
    simp [Parts.Overflows, Overflows]
  rw [hparts]
  constructor <;> simp [hdenotes, hoverflows]

theorem followsGrammar_read {parts : Parts} (hbody : parts.body ≠ []) :
    FollowsGrammar parts parts.read where
  ok_iff _ := Parts.read_eq_ok_iff
  empty_iff := by
    rw [Parts.read_eq_error_iff (by decide)]
    simp [hbody, Parts.overflow_ne_empty.symm]
  tooLarge_iff := by
    rw [Parts.read_eq_error_iff (by decide), eq_comm, Parts.overflow_eq_tooLarge_iff]
  tooSmall_iff := by
    rw [Parts.read_eq_error_iff (by decide), eq_comm, Parts.overflow_eq_tooSmall_iff]
  invalidDigit_iff := by
    have hoverflows : parts.read = .error parts.overflow ↔ parts.Overflows := by
      rw [Parts.read_eq_error_iff Parts.overflow_ne_invalidDigit]
      exact and_iff_right rfl
    simp only [← hoverflows, ← Parts.read_eq_ok_iff]
    cases hread : parts.read with
    | ok value => simp
    | error error =>
      have hinvalid : error ≠ parts.overflow ↔ error = .invalidDigit := by
        constructor
        · intro hother
          by_contra hvalid
          exact hother ((Parts.read_eq_error_iff hvalid).mp hread).1
        · rintro rfl
          exact Parts.overflow_ne_invalidDigit.symm
      simp [hbody, hinvalid]

theorem followsGrammar_ofText (text : String) :
    FollowsGrammar (Parts.ofText text) (read text) := by
  rw [read_eq]
  split_ifs with hbody
  · rw [Parts.ofText, Parts.body_ofBody] at hbody
    rw [Parts.ofText, hbody]
    exact followsGrammar_nil _
  · exact followsGrammar_read hbody

/-- A numeral with zeros in front of its digits is a numeral of the same number. -/
theorem read_of_leading_zeros {text : String} {value : Int} {opening : List Char}
    (hread : read text = .ok value) (htext : text.toList = opening ++ (Parts.ofText text).digits)
    (count : Nat) :
    read (String.ofList (opening ++ (List.replicate count '0' ++ (Parts.ofText text).digits))) =
      .ok value := by
  have hdenotes := ((followsGrammar_ofText text).ok_iff value).mp hread
  have ⟨_, spelled, _, hspells, _⟩ := hdenotes
  obtain ⟨other, hother, hexchange⟩ := Parts.exists_ofText text
  obtain rfl : opening = other := List.append_cancel_right (htext.symm.trans hother)
  have hzeros := hspells.leading_zeros (Parts.ofText text).form.radix_bounds.1 count
  obtain ⟨body, hparts⟩ := hexchange _ fun character hmem ↦ hzeros.exists_isDigit hmem
  rw [(followsGrammar_ofText _).ok_iff, hparts]
  exact hdenotes.leading_zeros count

/-- Reading decides whether a text follows the grammar of numerals, and of which number it is the
numeral. Where it is not one, the parts of the text say which error is reported. Zeros may stand in
front of the digits, as many as one likes. -/
theorem read_follows_grammar (text : String) :
    FollowsGrammar (Parts.ofText text) (read text) ∧
      ∀ value opening, read text = .ok value →
        text.toList = opening ++ (Parts.ofText text).digits → ∀ count,
          read (String.ofList (opening ++
            (List.replicate count '0' ++ (Parts.ofText text).digits))) = .ok value :=
  ⟨followsGrammar_ofText text, fun _ _ hread htext ↦ read_of_leading_zeros hread htext⟩

/-- A hexadecimal numeral, in which the zero of the opening is none of the digits. -/
theorem read_follows_grammar_hexadecimal :
    read "0XfF" = .ok 255 ∧ "0XfF".toList = ['0', 'X'] ++ (Parts.ofText "0XfF").digits ∧
      FollowsGrammar (Parts.ofText "0XfF") (.ok 255) ∧ read "0X00fF" = .ok 255 := by
  have hread : read "0XfF" = .ok 255 := by decide +kernel
  have hdigits : "0XfF".toList = ['0', 'X'] ++ (Parts.ofText "0XfF").digits := rfl
  obtain ⟨hfollows, hzeros⟩ := read_follows_grammar "0XfF"
  exact ⟨hread, hdigits, hread ▸ hfollows, hzeros 255 ['0', 'X'] hread hdigits 2⟩

end DualStack.Numeral
