import DualStack.Text.UpperCase.Table

/-!
# Upper case

Source text is read without regard to case: every token is put into upper case first
(`Text.upper`). The mapping works character by character and never yields nothing (`upperChar`);
a letter without a single upper-case counterpart becomes several. Characters below `128` need no
table.
-/

set_option autoImplicit false
set_option relaxedAutoImplicit false

namespace DualStack.Text

/-- The code points of the upper-case form of a code point. -/
def upperCode (code : Nat) : List Nat :=
  if code < 0x80 then
    if 0x61 ≤ code && code ≤ 0x7A then [code - 0x20] else [code]
  else
    match UpperCase.expansions.find? fun expansion ↦ expansion.1 == code with
    | some expansion => expansion.2
    | none =>
      match UpperCase.stretches.find? fun stretch ↦ stretch.covers code with
      | some stretch => [stretch.map code]
      | none => [code]

/-- The upper-case form of a character. -/
def upperChar (character : Char) : List Char := (upperCode character.toNat).map Char.ofNat

/-- A text in upper case. -/
def upper (text : List Char) : List Char := text.flatMap upperChar

/-- The first half of the code points changes its lower-case letters only. -/
theorem upperChar_of_ascii {character : Char} (hascii : character.toNat < 0x80)
    (hletter : ¬ (0x61 ≤ character.toNat ∧ character.toNat ≤ 0x7A)) :
    upperChar character = [character] := by
  have hcode : upperCode character.toNat = [character.toNat] := by
    simp only [upperCode, hascii, if_true, Bool.and_eq_true, decide_eq_true_eq, hletter, if_false]
  simp [upperChar, hcode, Char.ofNat_toNat]

/-- A text is in upper case if all its characters are. -/
theorem upper_eq_self {text : List Char}
    (hchars : ∀ character ∈ text, upperChar character = [character]) : upper text = text := by
  induction text with
  | nil => rfl
  | cons character rest ih =>
    obtain ⟨hfirst, hrest⟩ := List.forall_mem_cons.mp hchars
    rw [upper, List.flatMap_cons, hfirst]
    exact congrArg (character :: ·) (ih hrest)

/-- Upper case of a text in two parts is the upper case of the parts. -/
theorem upper_append (left right : List Char) : upper (left ++ right) = upper left ++ upper right :=
  List.flatMap_append

end DualStack.Text
