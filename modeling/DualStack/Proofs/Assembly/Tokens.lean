import DualStack.Proofs.Assembly.Line
import DualStack.Proofs.Numeral

/-!
# Finding tokens again

A token is settled (`Settled`) if it has a character, none of its characters separates tokens or
opens a comment, and it is in upper case. Mnemonics and decimal numerals are settled.

A text shows tokens (`Shows`) if it is made of them, in order, and of blanks, and no token touches
the next one. Settled tokens are found again in every text that shows them (`Shows.words_eq`), for
instance in the line that has one space between neighbours (`tokenize_intercalate`).
-/

set_option autoImplicit false
set_option relaxedAutoImplicit false

namespace DualStack.Assembly

/-! ### Settled tokens -/

/-- A token that is found again wherever blanks surround it. -/
structure Settled (token : String) : Prop where
  nonempty : token.toList ≠ []
  unseparated : ∀ character ∈ token.toList, character ≠ ';' ∧ isBlank character = false
  upper : Text.upper token.toList = token.toList

theorem settled_mnemonic (instruction : Instruction) : Settled instruction.mnemonic where
  nonempty := by cases instruction <;> decide
  unseparated := by
    have hall : (instruction.mnemonic.toList.all fun character ↦
        character != ';' && !isBlank character) = true := by
      cases instruction <;> decide
    simpa using hall
  upper := by cases instruction <;> decide

/-- Decimal numerals are made of digits, and of a minus sign, which is not far from them. -/
theorem toNat_mem_write {value : Int} {character : Char}
    (hmem : character ∈ (Numeral.write value).toList) :
    0x2D ≤ character.toNat ∧ character.toNat ≤ 0x39 := by
  have hdigits (hdigit : character ∈ Nat.toDigits 10 value.natAbs) :
      0x2D ≤ character.toNat ∧ character.toNat ≤ 0x39 := by
    have hrange := Nat.isDigit_of_mem_toDigits (by decide) (by decide) hdigit
    have hzero : '0'.toNat = 0x30 := rfl
    have hnine : '9'.toNat = 0x39 := rfl
    rw [Char.isDigit_iff_toNat, hzero, hnine] at hrange
    omega
  rw [Numeral.toList_write, Numeral.writeChars] at hmem
  split at hmem
  · rcases List.mem_cons.mp hmem with rfl | hmem
    · decide
    · exact hdigits hmem
  · exact hdigits hmem

theorem settled_write (value : Int) : Settled (Numeral.write value) := by
  refine ⟨?_, ?_, ?_⟩
  · obtain ⟨digit, hmem, -⟩ := Numeral.exists_isDigit_write value
    exact List.ne_nil_of_mem hmem
  · intro character hmem
    have hrange := toNat_mem_write hmem
    constructor
    · rintro rfl
      simp at hrange
    · simp only [isBlank, Bool.or_eq_false_iff, beq_eq_false_iff_ne]
      constructor
      · rintro rfl
        simp at hrange
      · rintro rfl
        simp at hrange
  · refine Text.upper_eq_self fun character hmem ↦ ?_
    have hrange := toNat_mem_write hmem
    exact Text.upperChar_of_ascii (by omega) (by omega)

/-- A decimal numeral is no label. -/
theorem isLabel_write (value : Int) : isLabel (Numeral.write value) = false := by
  unfold isLabel
  rw [beq_eq_false_iff_ne]
  intro hhead
  have hrange := (toNat_mem_write (List.mem_of_head? hhead)).2
  simp at hrange

/-! ### Texts that show tokens -/

/-- `Shows tokens text`: the text consists of the tokens, in order, and of blanks, and behind each
token there is a blank or the end of the text. -/
inductive Shows : List String → List Char → Prop
  | nil : Shows [] []
  | blank {tokens : List String} {blank : Char} {text : List Char}
      (hblank : isBlank blank = true) (hrest : Shows tokens text) : Shows tokens (blank :: text)
  | token {token : String} {tokens : List String} {text : List Char}
      (hends : ∀ next ∈ text.head?, isBlank next = true) (hrest : Shows tokens text) :
      Shows (token :: tokens) (token.toList ++ text)

variable {tokens : List String} {text : List Char}

/-- A settled token is one word. -/
theorem Settled.words_eq {token : String} (hsettled : Settled token) :
    words token.toList = [token] := by
  have hunseparated : ∀ character ∈ token.toList, isBlank character = false :=
    fun character hmem ↦ (hsettled.unseparated character hmem).2
  rw [words_of_forall hunseparated, if_neg hsettled.nonempty, hsettled.upper, String.ofList_toList]

/-- A blank at the beginning of a text is of no account. -/
theorem words_cons_blank {blank : Char} (hblank : isBlank blank = true) (text : List Char) :
    words (blank :: text) = words text :=
  words_append_blank [] text hblank

/-- Settled tokens are the words of every text that shows them. -/
theorem Shows.words_eq (hshows : Shows tokens text) (hsettled : ∀ token ∈ tokens, Settled token) :
    words text = tokens := by
  induction hshows with
  | nil => rfl
  | blank hblank _ ih => rw [words_cons_blank hblank, ih hsettled]
  | @token token tokens text hends _ ih =>
    obtain ⟨htoken, hrest⟩ := List.forall_mem_cons.mp hsettled
    have hwords := ih hrest
    cases text with
    | nil =>
      obtain rfl : [] = tokens := hwords
      rw [List.append_nil, htoken.words_eq]
    | cons blank text =>
      have hblank : isBlank blank = true := hends blank rfl
      rw [words_append_blank _ _ hblank, htoken.words_eq, ← words_cons_blank hblank, hwords]
      rfl

/-- There is no comment in a text that shows settled tokens. -/
theorem Shows.not_mem (hshows : Shows tokens text) (hsettled : ∀ token ∈ tokens, Settled token) :
    ';' ∉ text := by
  induction hshows with
  | nil => simp
  | blank hblank _ ih =>
    intro hmem
    rcases List.mem_cons.mp hmem with rfl | hmem
    · exact absurd hblank (by decide)
    · exact ih hsettled hmem
  | token _ _ ih =>
    obtain ⟨htoken, hrest⟩ := List.forall_mem_cons.mp hsettled
    intro hmem
    rcases List.mem_append.mp hmem with hmem | hmem
    · exact (htoken.unseparated _ hmem).1 rfl
    · exact ih hrest hmem

/-- A space between neighbours is enough to show tokens. -/
theorem shows_intercalate (tokens : List String) :
    Shows tokens (" ".intercalate tokens).toList := by
  induction tokens with
  | nil => exact .nil
  | cons token tokens ih =>
    cases tokens with
    | nil => simpa using @Shows.token token [] [] (by simp) .nil
    | cons next tokens =>
      have hline : (" ".intercalate (token :: next :: tokens)).toList =
          token.toList ++ ' ' :: (" ".intercalate (next :: tokens)).toList := by
        rw [String.intercalate_cons_cons, String.toList_append, String.toList_append,
          List.append_assoc]
        rfl
      rw [hline]
      exact .token (by simp [isBlank]) (.blank rfl ih)

/-- Settled tokens are found again in a line that has a space between neighbours. -/
theorem tokenize_intercalate (hsettled : ∀ token ∈ tokens, Settled token) :
    tokenize [" ".intercalate tokens] = tokens := by
  have hshows := shows_intercalate tokens
  rw [tokenize_cons, content_of_not_mem (hshows.not_mem hsettled), hshows.words_eq hsettled,
    tokenize_nil, List.append_nil]

end DualStack.Assembly
