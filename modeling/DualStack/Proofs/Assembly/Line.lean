import DualStack.Assembly.Token
import Mathlib.Data.List.DropRight

/-!
# What a line says

The tokens of source text can be told without following its characters one by one. What is read of a
line (`content`) is the line itself or, if there is a semicolon in it, what stands before the first
one, less what stands there behind the last blank. The words of that text (`words`) are the pieces
between its blanks, put into upper case; where two blanks meet there is no word.

The tokens of source lines are the words of these lines, one line after the other, so that no line
has an influence on another (`tokenize_eq_flatMap`).
-/

set_option autoImplicit false
set_option relaxedAutoImplicit false

namespace DualStack.Assembly

/-- The part of a line that is read. A semicolon takes away the rest of the line and, on its other
side, all that reaches back from it to a blank. -/
def content (line : List Char) : List Char :=
  if ';' ∈ line then (line.takeWhile (· ≠ ';')).rdropWhile fun character ↦ !isBlank character
  else line

/-- The words of a text, in upper case. -/
def words (text : List Char) : List String :=
  ((text.splitOnP isBlank).filter (· ≠ [])).map fun piece ↦ String.ofList (Text.upper piece)

variable {before rest pending : List Char} {blank : Char}

/-! ### Content -/

theorem content_of_not_mem (hbefore : ';' ∉ before) : content before = before := if_neg hbefore

/-- A comment takes away all that reaches back from it to a blank. -/
theorem content_append_comment (hbefore : ';' ∉ before) :
    content (before ++ ';' :: rest) = before.rdropWhile fun character ↦ !isBlank character := by
  have hall : ∀ character ∈ before, decide (character ≠ ';') = true := by
    intro character hmem
    exact decide_eq_true fun hcomment ↦ hbefore (hcomment ▸ hmem)
  have htake : (before ++ ';' :: rest).takeWhile (· ≠ ';') = before := by
    rw [List.takeWhile_append_of_pos hall, List.takeWhile_cons_of_neg (by decide), List.append_nil]
  rw [content, if_pos (by simp), htake]

/-- What is taken away from the end of a text does not reach beyond a blank. -/
theorem rdropWhile_append_blank (hblank : isBlank blank = true) :
    (before ++ blank :: rest).rdropWhile (fun character ↦ !isBlank character) =
      before ++ blank :: rest.rdropWhile fun character ↦ !isBlank character := by
  induction rest using List.reverseRecOn with
  | nil => exact List.rdropWhile_concat_neg _ _ _ (by simp [hblank])
  | append_singleton rest last ih =>
    rw [← List.cons_append, ← List.append_assoc, List.rdropWhile_concat, List.rdropWhile_concat]
    split
    · exact ih
    · simp

/-- Nothing behind a blank has an influence on what stands before it. -/
theorem content_append_blank (hbefore : ';' ∉ before) (hblank : isBlank blank = true) :
    content (before ++ blank :: rest) = before ++ blank :: content rest := by
  have hne : ';' ≠ blank := by
    rintro rfl
    exact absurd hblank (by decide)
  by_cases hmem : ';' ∈ rest
  · obtain ⟨left, right, rfl, hleft⟩ := List.eq_append_cons_of_mem hmem
    have hfront : ';' ∉ before ++ blank :: left := by simp [hbefore, hleft, hne]
    have hline : before ++ blank :: (left ++ ';' :: right) =
        (before ++ blank :: left) ++ ';' :: right := by simp
    rw [hline, content_append_comment hfront, content_append_comment hleft,
      rdropWhile_append_blank hblank]
  · have hline : ';' ∉ before ++ blank :: rest := by simp [hbefore, hmem, hne]
    rw [content_of_not_mem hline, content_of_not_mem hmem]

/-! ### Words -/

/-- A blank stands between words. -/
theorem words_append_blank (before rest : List Char) (hblank : isBlank blank = true) :
    words (before ++ blank :: rest) = words before ++ words rest := by
  simp [words, List.splitOnP_append_cons before rest hblank]

/-- What contains no blank is one word, unless there is nothing. -/
theorem words_of_forall (hbefore : ∀ character ∈ before, isBlank character = false) :
    words before = if before = [] then [] else [String.ofList (Text.upper before)] := by
  rw [words, List.splitOnP_eq_singleton hbefore]
  split
  · next hempty => simp [hempty]
  · next hsome => simp [hsome]

/-- Closing a token adds the word that its characters are. -/
theorem toList_close (found : Array String)
    (hpending : ∀ character ∈ pending, isBlank character = false) :
    (close found pending).toList = found.toList ++ words pending.reverse := by
  rw [words_of_forall (by simpa using hpending)]
  cases pending with
  | nil => simp [close]
  | cons last pending => simp [close]

/-! ### Tokens -/

/-- The tokens of a line are the words of its content. The characters that have been set aside
already are the part of the line before the others. -/
theorem toList_tokensFrom (found : Array String)
    (hpending : ∀ character ∈ pending, character ≠ ';' ∧ isBlank character = false) :
    (tokensFrom found pending rest).toList =
      found.toList ++ words (content (pending.reverse ++ rest)) := by
  have hcomment (pending : List Char)
      (hpending : ∀ character ∈ pending, character ≠ ';' ∧ isBlank character = false) :
      ';' ∉ pending.reverse := by
    intro hmem
    exact (hpending ';' (by simpa using hmem)).1 rfl
  induction rest generalizing found pending with
  | nil =>
    rw [tokensFrom, toList_close found fun character hmem ↦ (hpending character hmem).2,
      List.append_nil, content_of_not_mem (hcomment pending hpending)]
  | cons character rest ih =>
    rw [tokensFrom]
    split
    · next hsemicolon =>
      have hgone : (pending.reverse.rdropWhile fun character ↦ !isBlank character) = [] := by
        rw [List.rdropWhile_eq_nil_iff]
        intro character hmem
        simpa using (hpending character (by simpa using hmem)).2
      rw [hsemicolon, content_append_comment (hcomment pending hpending), hgone]
      simp [words]
    · next hother =>
      split
      · next hblank =>
        rw [ih _ (by simp), toList_close found fun character hmem ↦ (hpending character hmem).2,
          content_append_blank (hcomment pending hpending) hblank,
          words_append_blank _ _ hblank, List.reverse_nil, List.nil_append, List.append_assoc]
      · next hblank =>
        have hlonger : ∀ one ∈ character :: pending, one ≠ ';' ∧ isBlank one = false :=
          List.forall_mem_cons.mpr ⟨⟨hother, by simpa using hblank⟩, hpending⟩
        rw [ih found hlonger, List.reverse_cons, List.append_assoc, List.singleton_append]

/-- The tokens of lines are added line by line, and a line adds its words. -/
theorem toList_foldl_tokensFrom (found : Array String) (lines : List String) :
    (lines.foldl (fun tokens line ↦ tokensFrom tokens [] line.toList) found).toList =
      found.toList ++ lines.flatMap fun line ↦ words (content line.toList) := by
  induction lines generalizing found with
  | nil => simp
  | cons line lines ih =>
    rw [List.foldl_cons, ih, toList_tokensFrom found (by simp), List.flatMap_cons,
      List.append_assoc, List.reverse_nil, List.nil_append]

@[simp] theorem tokenize_nil : tokenize [] = [] := rfl

theorem tokenize_cons (line : String) (lines : List String) :
    tokenize (line :: lines) = words (content line.toList) ++ tokenize lines := by
  rw [tokenize, toList_foldl_tokensFrom, tokenize, toList_foldl_tokensFrom]
  simp

/-- The tokens of source lines are the words of what is read of each line, one line after the
other. -/
theorem tokenize_eq_flatMap (lines : List String) :
    tokenize lines = lines.flatMap fun line ↦ words (content line.toList) := by
  rw [tokenize, toList_foldl_tokensFrom]
  rfl

/-- A word that a semicolon touches is dropped, and one that a blank keeps away from it stays. -/
example : tokenize ["  lit 5\tlit x03 ; comment", "; dup", ":loop dup;drop", "+"] =
    ["LIT", "5", "LIT", "X03", ":LOOP", "+"] := by decide

end DualStack.Assembly
