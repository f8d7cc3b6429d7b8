/-!
# Terminal styles

A style is a colour, boldness, or both.  A painted text starts with the
sequence that selects its style and ends with the reset sequence; where the
text itself resets, the style is selected again.
-/

namespace LockBench

/-- Foreground colours of a terminal. -/
inductive Ink
  | red
  | green
  | yellow
  | blue
  | cyan
  | white
  deriving DecidableEq, Repr

/-- The digits that select an ink. -/
def Ink.code : Ink -> String
  | .red => "31"
  | .green => "32"
  | .yellow => "33"
  | .blue => "34"
  | .cyan => "36"
  | .white => "37"

/-- How a text is shown: bold or not, and in which ink if in one. -/
structure Style where
  /-- Whether the text is bold. -/
  bold : Bool := false
  /-- The ink, if one is chosen. -/
  ink : Option Ink := none
  deriving DecidableEq, Repr

namespace Style

/-- Bold text in the default ink. -/
def emphasis : Style := ⟨true, none⟩

/-- The sequence that resets every style. -/
def reset : String := "\x1b[0m"

/-- The sequence that selects a style. -/
def select (style : Style) : String :=
  let codes := (if style.bold then ["1"] else []) ++
    (style.ink.map Ink.code).toList
  "\x1b[" ++ ";".intercalate codes ++ "m"

/-- The characters of a text with a style selected again after every reset
sequence in it. -/
def reselect (selection : List Char) : List Char -> List Char
  | '\x1b' :: '[' :: '0' :: 'm' :: rest =>
    reset.toList ++ selection ++ reselect selection rest
  | c :: rest => c :: reselect selection rest
  | [] => []

/-- A text in a style, or the bare text where styles are off. -/
def paint
    (colored : Bool)
    (style : Style)
    (text : String) : String :=
  if colored then
    style.select ++
      String.ofList (reselect style.select.toList text.toList) ++ reset
  else text

@[simp] theorem paint_false
    (style : Style)
    (text : String) :
    style.paint false text = text := rfl

end Style
end LockBench
