import DualStack.Text.Lines
import Mathlib.Data.List.Basic

/-!
# Lines and their ends

A text is made from lines by ending each of them, with a line feed or with a carriage return and a
line feed, as one likes; the last line may do without an end (`Terminated`). If the lines are
unbroken (`Unbroken`), none of them contains or forms a part of a line end, and they are found again:
all of them but for an empty one at the end of the text, which cannot be seen there if it has no end
(`filter_lines`).
-/

set_option autoImplicit false
set_option relaxedAutoImplicit false

namespace DualStack.Text

/-- A line that is no more than a line: there is no line feed in it, and it does not end in a
carriage return, which would be taken for a part of the line end. -/
structure Unbroken (line : String) : Prop where
  feed_not_mem : '\n' ∉ line.toList
  not_return : line.toList.getLast? ≠ some '\r'

/-- `Terminated lines text`: the text is made of the lines, in order, each with an end of its own
behind it, which may be missing behind the last line. -/
inductive Terminated : List String → String → Prop
  | nil : Terminated [] ""
  | unended {line : String} : Terminated [line] line
  | feed {line text : String} {lines : List String} (hrest : Terminated lines text) :
      Terminated (line :: lines) (line ++ "\n" ++ text)
  | returnFeed {line text : String} {lines : List String} (hrest : Terminated lines text) :
      Terminated (line :: lines) (line ++ "\r\n" ++ text)

variable {line text : String} {lines : List String}

/-- Characters without a line feed are put with those before them. -/
theorem linesFrom_append (found : Array String) (pending : List Char) {part : List Char}
    (hpart : '\n' ∉ part) (rest : List Char) :
    linesFrom found pending (part ++ rest) = linesFrom found (part.reverse ++ pending) rest := by
  induction part generalizing pending with
  | nil => rfl
  | cons character part ih =>
    have hfirst : character ≠ '\n' := fun hfeed ↦ hpart (hfeed ▸ List.mem_cons_self)
    have hrest : '\n' ∉ part := fun hmem ↦ hpart (List.mem_cons_of_mem character hmem)
    rw [List.cons_append, linesFrom, if_neg hfirst, ih _ hrest, List.reverse_cons,
      List.append_assoc, List.singleton_append]

/-- A line that does not end in a carriage return has none to lose. -/
theorem trimReturn_reverse {characters : List Char} (hlast : characters.getLast? ≠ some '\r') :
    trimReturn characters.reverse = characters.reverse := by
  unfold trimReturn
  split
  · next pending hpending =>
    refine absurd ?_ hlast
    rw [List.getLast?_eq_head?_reverse, hpending]
    rfl
  · rfl

/-- A line feed ends an unbroken line. -/
theorem linesFrom_feed (hline : Unbroken line) (found : Array String) (rest : List Char) :
    linesFrom found [] (line.toList ++ '\n' :: rest) = linesFrom (found.push line) [] rest := by
  rw [linesFrom_append found [] hline.feed_not_mem, List.append_nil, linesFrom, if_pos rfl,
    trimReturn_reverse hline.not_return, List.reverse_reverse, String.ofList_toList]

/-- So does a carriage return with a line feed. -/
theorem linesFrom_returnFeed (hline : Unbroken line) (found : Array String) (rest : List Char) :
    linesFrom found [] (line.toList ++ '\r' :: '\n' :: rest) =
      linesFrom (found.push line) [] rest := by
  rw [linesFrom_append found [] hline.feed_not_mem, List.append_nil, linesFrom,
    if_neg (by decide), linesFrom, if_pos rfl, trimReturn, List.reverse_reverse,
    String.ofList_toList]

/-- What has no end is a line unless there is nothing. -/
theorem linesFrom_unended (hline : Unbroken line) (found : Array String) :
    linesFrom found [] line.toList = if line = "" then found else found.push line := by
  have hwhole := linesFrom_append found [] hline.feed_not_mem []
  rw [List.append_nil, List.append_nil] at hwhole
  rw [hwhole, linesFrom, List.reverse_reverse, String.ofList_toList]
  simp

/-- The lines of a text are added to those found before, but for an empty one without an end. -/
theorem toList_linesFrom (htext : Terminated lines text) (hlines : ∀ line ∈ lines, Unbroken line)
    (found : Array String) :
    (linesFrom found [] text.toList).toList = found.toList ++ lines ∨
      (linesFrom found [] text.toList).toList ++ [""] = found.toList ++ lines := by
  induction htext generalizing found with
  | nil => exact .inl (by simp [linesFrom])
  | @unended line =>
    rw [linesFrom_unended (hlines line List.mem_cons_self)]
    split
    · next hempty => exact .inr (by rw [hempty])
    · exact .inl (by simp)
  | @feed line text lines _ ih =>
    obtain ⟨hline, hrest⟩ := List.forall_mem_cons.mp hlines
    have htext : (line ++ "\n" ++ text).toList = line.toList ++ '\n' :: text.toList := by
      simp
    rw [htext, linesFrom_feed hline]
    simpa using ih hrest (found.push line)
  | @returnFeed line text lines _ ih =>
    obtain ⟨hline, hrest⟩ := List.forall_mem_cons.mp hlines
    have htext : (line ++ "\r\n" ++ text).toList = line.toList ++ '\r' :: '\n' :: text.toList := by
      simp
    rw [htext, linesFrom_returnFeed hline]
    simpa using ih hrest (found.push line)

/-- Unbroken lines are found again in a text that is made from them, but for an empty last line
without an end. -/
theorem lines_eq_or (htext : Terminated lines text) (hlines : ∀ line ∈ lines, Unbroken line) :
    Text.lines text = lines ∨ Text.lines text ++ [""] = lines := by
  simpa [Text.lines] using toList_linesFrom htext hlines #[]

/-- The lines that are not empty are found again in every such text. -/
theorem filter_lines (htext : Terminated lines text) (hlines : ∀ line ∈ lines, Unbroken line) :
    (Text.lines text).filter (· ≠ "") = lines.filter (· ≠ "") := by
  rcases lines_eq_or htext hlines with hsame | hsame
  · rw [hsame]
  · rw [← hsame, List.filter_append]
    simp

end DualStack.Text
