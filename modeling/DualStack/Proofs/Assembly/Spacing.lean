import DualStack.Assembly.Image
import DualStack.Proofs.Assembly.Tokens
import DualStack.Proofs.Text.UpperCase

/-!
# Where tokens stand

Lines and blanks carry no meaning. A row of tokens is laid out on a line (`LaidOut`) if the line
shows the tokens, and behind them there may be a comment that touches none of them. Tokens are
spaced out over lines (`Spaced`) if they are laid out on these lines in order, a row for each; a row
may be empty, so that there may be lines without tokens anywhere.

The tokens of any source are settled (`settled_of_mem_tokenize`). They are found again wherever they
are spaced out, and the program assembles as before (`tokenize_of_spaced`).
-/

set_option autoImplicit false
set_option relaxedAutoImplicit false

namespace DualStack.Assembly

/-! ### The tokens of a source -/

/-- The pieces of a text between its blanks are parts of it without a blank. -/
theorem mem_of_mem_splitOnP {text piece : List Char} {character : Char}
    (hpiece : piece ∈ text.splitOnP isBlank) (hmem : character ∈ piece) :
    character ∈ text ∧ isBlank character = false := by
  induction text generalizing piece with
  | nil =>
    obtain rfl : piece = [] := by simpa using hpiece
    simp at hmem
  | cons first text ih =>
    rw [List.splitOnP_cons_eq_if_modifyHead] at hpiece
    split at hpiece
    · rcases List.mem_cons.mp hpiece with rfl | hpiece
      · simp at hmem
      · exact (ih hpiece hmem).imp_left (List.mem_cons_of_mem first)
    · next hfirst =>
      obtain ⟨head, others, hpieces⟩ :=
        List.exists_cons_of_ne_nil (List.splitOnP_ne_nil isBlank text)
      rw [hpieces] at hpiece ih
      rcases List.mem_cons.mp hpiece with rfl | hpiece
      · rcases List.mem_cons.mp hmem with rfl | hmem
        · exact ⟨List.mem_cons_self, by simpa using hfirst⟩
        · exact (ih List.mem_cons_self hmem).imp_left (List.mem_cons_of_mem first)
      · exact (ih (List.mem_cons_of_mem head hpiece) hmem).imp_left (List.mem_cons_of_mem first)

/-- What is read of a line does not reach to a semicolon. -/
theorem comment_not_mem_content (line : List Char) : ';' ∉ content line := by
  unfold content
  split
  · intro hmem
    simpa using List.mem_takeWhile_imp ((List.rdropWhile_prefix _ _).subset hmem)
  · assumption

/-- The characters that have a meaning for the layout come before the capital letters. -/
theorem unseparated_of_le {character : Char} (hcapital : 0x41 ≤ character.toNat) :
    character ≠ ';' ∧ isBlank character = false := by
  constructor
  · rintro rfl
    simp at hcapital
  · rw [isBlank, Bool.or_eq_false_iff, beq_eq_false_iff_ne, beq_eq_false_iff_ne]
    constructor
    · rintro rfl
      simp at hcapital
    · rintro rfl
      simp at hcapital

/-- Words of a text without a semicolon are settled: upper case neither removes a piece nor brings a
character in that has a meaning for the layout. -/
theorem settled_of_mem_words {text : List Char} {token : String} (htext : ';' ∉ text)
    (htoken : token ∈ words text) : Settled token := by
  obtain ⟨piece, hpiece, rfl⟩ := List.mem_map.mp htoken
  obtain ⟨hpiece, hsome⟩ := List.mem_filter.mp hpiece
  refine ⟨?_, ?_, ?_⟩
  · rw [String.toList_ofList]
    exact Text.upper_ne_nil (of_decide_eq_true hsome)
  · rw [String.toList_ofList]
    intro image himage
    obtain ⟨character, hmem, himage⟩ := Text.mem_upper.mp himage
    by_cases hcapital : 0x41 ≤ image.toNat
    · exact unseparated_of_le hcapital
    · obtain rfl := Text.eq_of_mem_upperChar himage (Nat.not_le.mp hcapital)
      obtain ⟨hmem, hblank⟩ := mem_of_mem_splitOnP hpiece hmem
      exact ⟨fun hcomment ↦ htext (hcomment ▸ hmem), hblank⟩
  · rw [String.toList_ofList, Text.upper_upper]

theorem settled_of_mem_tokenize {lines : List String} {token : String}
    (htoken : token ∈ tokenize lines) : Settled token := by
  induction lines with
  | nil => simp at htoken
  | cons line lines ih =>
    rw [tokenize_cons] at htoken
    rcases List.mem_append.mp htoken with hfirst | hrest
    · exact settled_of_mem_words (comment_not_mem_content _) hfirst
    · exact ih hrest

/-! ### Lines that tokens are laid out on -/

/-- `LaidOut row line`: the line shows the tokens of the row, and a comment may follow that stands
at the beginning of the line or behind a blank. -/
inductive LaidOut (row : List String) : List Char → Prop
  | plain {text : List Char} (hshows : Shows row text) : LaidOut row text
  | commented {text comment : List Char} (hshows : Shows row text)
      (hclear : ∀ last ∈ text.getLast?, isBlank last = true) : LaidOut row (text ++ ';' :: comment)

/-- `Spaced tokens lines`: the tokens are laid out on the lines in order, a row on each. -/
def Spaced (tokens lines : List String) : Prop :=
  ∃ rows : List (List String), rows.flatten = tokens ∧
    List.Forall₂ (fun row line ↦ LaidOut row line.toList) rows lines

/-- The words of a line are the settled tokens that are laid out on it. -/
theorem LaidOut.words_eq {row : List String} {line : List Char} (hlaid : LaidOut row line)
    (hsettled : ∀ token ∈ row, Settled token) : words (content line) = row := by
  cases hlaid with
  | plain hshows =>
    rw [content_of_not_mem (hshows.not_mem hsettled), hshows.words_eq hsettled]
  | @commented text _ hshows hclear =>
    have hkept : (text.rdropWhile fun character ↦ !isBlank character) = text := by
      refine List.rdropWhile_eq_self_iff.mpr fun hsome ↦ ?_
      simp [hclear _ (List.getLast?_eq_some_getLast hsome)]
    rw [content_append_comment (hshows.not_mem hsettled), hkept, hshows.words_eq hsettled]

/-- Settled tokens are found again on the lines that they are laid out on. -/
theorem tokenize_of_forall₂ {rows : List (List String)} {lines : List String}
    (hlaid : List.Forall₂ (fun row line ↦ LaidOut row line.toList) rows lines)
    (hsettled : ∀ token ∈ rows.flatten, Settled token) : tokenize lines = rows.flatten := by
  induction hlaid with
  | nil => rfl
  | @cons row line rows lines hline _ ih =>
    rw [List.flatten_cons, List.forall_mem_append] at hsettled
    rw [tokenize_cons, hline.words_eq hsettled.1, ih hsettled.2, List.flatten_cons]

/-- Tokens have characters, none of which separates tokens or opens a comment. Wherever the tokens
of a source are spaced out they are the tokens again, and what they assemble to is the same. -/
theorem tokenize_of_spaced (lines : List String) :
    (∀ token ∈ tokenize lines, token ≠ "" ∧ ' ' ∉ token.toList ∧ '\t' ∉ token.toList ∧
      ';' ∉ token.toList) ∧
    ∀ others, Spaced (tokenize lines) others → tokenize others = tokenize lines ∧
      ∀ size, assemble (tokenize others) size = assemble (tokenize lines) size := by
  constructor
  · intro token htoken
    have hsettled := settled_of_mem_tokenize htoken
    refine ⟨?_, ?_, ?_, ?_⟩
    · rintro rfl
      exact hsettled.nonempty rfl
    · exact fun hmem ↦ absurd (hsettled.unseparated ' ' hmem).2 (by decide)
    · exact fun hmem ↦ absurd (hsettled.unseparated '\t' hmem).2 (by decide)
    · exact fun hmem ↦ (hsettled.unseparated ';' hmem).1 rfl
  · rintro others ⟨rows, hrows, hlaid⟩
    have hsame : tokenize others = tokenize lines := by
      rw [tokenize_of_forall₂ hlaid fun token hmem ↦ settled_of_mem_tokenize (hrows ▸ hmem), hrows]
    exact ⟨hsame, fun size ↦ by rw [hsame]⟩

/-- A source in small letters, one of which becomes two capital letters, and its tokens on other
lines, with comments between an instruction and its operand. -/
theorem tokenize_of_spaced_apart : ∃ lines others,
    lines = [":straße lit 5", "call :straße ;dup"] ∧
    others = ["\t:STRASSE  ", "; LIT 4", "LIT ;4", "", "5 CALL", ":STRASSE"] ∧
    Spaced (tokenize lines) others ∧
    tokenize others = [":STRASSE", "LIT", "5", "CALL", ":STRASSE"] ∧
    ∀ size, assemble (tokenize others) size = assemble (tokenize lines) size := by
  have htokens : tokenize [":straße lit 5", "call :straße ;dup"] =
      [":STRASSE", "LIT", "5", "CALL", ":STRASSE"] := by decide +kernel
  have hfirst : LaidOut [":STRASSE"] "\t:STRASSE  ".toList :=
    .plain (.blank rfl (@Shows.token ":STRASSE" [] [' ', ' '] (by simp [isBlank])
      (.blank rfl (.blank rfl .nil))))
  have hcomment : LaidOut [] "; LIT 4".toList := @LaidOut.commented [] [] _ .nil (by simp [isBlank])
  have hinstruction : LaidOut ["LIT"] "LIT ;4".toList :=
    @LaidOut.commented ["LIT"] ['L', 'I', 'T', ' '] ['4']
      (@Shows.token "LIT" [] [' '] (by simp [isBlank]) (.blank rfl .nil)) (by simp [isBlank])
  have hoperand : LaidOut ["5", "CALL"] "5 CALL".toList :=
    .plain (@Shows.token "5" ["CALL"] [' ', 'C', 'A', 'L', 'L'] (by simp [isBlank])
      (.blank rfl (@Shows.token "CALL" [] [] (by simp [isBlank]) .nil)))
  have hlast : LaidOut [":STRASSE"] ":STRASSE".toList :=
    .plain (@Shows.token ":STRASSE" [] [] (by simp [isBlank]) .nil)
  have hspaced : Spaced (tokenize [":straße lit 5", "call :straße ;dup"])
      ["\t:STRASSE  ", "; LIT 4", "LIT ;4", "", "5 CALL", ":STRASSE"] := by
    refine ⟨[[":STRASSE"], [], ["LIT"], [], ["5", "CALL"], [":STRASSE"]], htokens.symm, ?_⟩
    exact .cons hfirst (.cons hcomment (.cons hinstruction (.cons (.plain .nil)
      (.cons hoperand (.cons hlast .nil)))))
  obtain ⟨hsame, hassemble⟩ := (tokenize_of_spaced _).2 _ hspaced
  exact ⟨_, _, rfl, rfl, hspaced, hsame.trans htokens, hassemble⟩

end DualStack.Assembly
