/-!
# Lines of a text

A line ends at a line feed, and a carriage return directly before that line feed belongs to the line
end as well. What follows the last line feed is a line of its own unless it is empty; no line end
follows it, so it keeps a carriage return (`Text.lines`).
-/

set_option autoImplicit false
set_option relaxedAutoImplicit false

namespace DualStack.Text

/-- A line without the carriage return that belongs to its end; the line is given back to front. -/
def trimReturn : List Char → List Char
  | '\r' :: pending => pending
  | pending => pending

/-- Adds the lines of a text to those found already. The characters of the line at hand are
`pending`, back to front. -/
def linesFrom (found : Array String) (pending : List Char) : List Char → Array String
  | [] => if pending.isEmpty then found else found.push (String.ofList pending.reverse)
  | character :: rest =>
    if character = '\n' then
      linesFrom (found.push (String.ofList (trimReturn pending).reverse)) [] rest
    else
      linesFrom found (character :: pending) rest

/-- The lines of a text, without their line ends. -/
def lines (text : String) : List String := (linesFrom #[] [] text.toList).toList

end DualStack.Text
