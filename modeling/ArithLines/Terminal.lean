import ArithLines.Report
import ArithLines.Text.Trim
import ArithLines.Text.Width

/-! A printer of reports for terminals. The line is shown with the characters of the label coloured
and underlined. Below the line each of its characters has as many cells as it takes columns, so that
the underline stands below what it marks. Characters that begin a new line on some terminals are not
treated as such. -/

namespace ArithLines

def Colour.code : Colour → String
  | red => "31"
  | magenta => "35"
  | yellow => "33"
  | cyan => "36"

def Span.covers (span : Span) (position : Nat) : Bool :=
  span.start ≤ position && position < span.stop

def Span.middle (span : Span) : Nat := (span.start + span.stop) / 2

namespace Terminal

def paint (code text : String) : String := "\x1b[" ++ code ++ "m" ++ text ++ "\x1b[0m"

def plain : String := "38;5;249"

def frame : String := "38;5;246"

def margin : String := " " ++ paint "38;5;240" "  │" ++ " "

def caption (caption : Caption) : String :=
  paint caption.colour.code caption.title ++ ": " ++ caption.sentence

/-- The columns that the character at index `i` takes: a tab reaches to the next index that four
divides, any other white space takes one. -/
def columns (i : Nat) (c : Char) : Nat :=
  if c = '\t' then 4 - i % 4 else if Text.isBlank c then 1 else Text.width c

def repeated (count : Nat) (text : String) : String :=
  String.join (List.replicate count text)

def glyph (code : String) (i : Nat) (c : Char) : String :=
  if Text.isBlank c then repeated (columns i c) (paint code " ")
  else paint code (String.singleton c)

def shown (label : Label) (text : List Char) : String :=
  String.join (text.mapIdx fun i c =>
    glyph (if label.span.covers i then label.colour.code else plain) i c)

/-- A column of `count` cells, of which the first is `first` and the others are `others`. -/
def column (count : Nat) (first others : String) : String :=
  match count with
  | 0 => ""
  | more + 1 => first ++ repeated more others

/-- The widths of the first `count` columns, those of the characters above them, and past the end of
the text one. -/
def widths (text : List Char) (count : Nat) : List Nat :=
  (text.mapIdx columns ++ List.replicate (count - text.length) 1).take count

/-- Columns from the first to the second one after the label, with what `cells` gives as first and
as other cells of each. -/
def row (label : Label) (text : List Char) (cells : Nat → String × String) : String :=
  String.join ((widths text (label.span.stop + 2)).mapIdx fun i width =>
    column width (cells i).1 (cells i).2)

def underline (label : Label) (text : List Char) : String :=
  let painted := paint label.colour.code
  row label text fun i =>
    if label.span.covers i then
      (painted (if i = label.span.middle then "┬" else "─"), painted "─")
    else (" ", " ")

/-- An arrow that leads from the mark to the message on its right. -/
def arrow (label : Label) (text : List Char) : String :=
  let painted := paint label.colour.code
  row label text fun i =>
    if i < label.span.middle then (" ", " ")
    else (painted (if i = label.span.middle then "╰" else "─"), painted "─")

def heading (report : Report) : String := paint "31" "Error:" ++ " " ++ caption report.heading

/-- The lines of a report. Of an empty line there is nothing to show below the heading. -/
def rows (report : Report) : List String :=
  if report.line.isEmpty then [heading report]
  else
    let text := Text.trimEnd Text.isBlank report.line
    [ heading report,
      "   " ++ paint frame "╭" ++ paint frame "─" ++ paint frame "[" ++ report.name ++ ":1:" ++
        toString (report.position + 1) ++ paint frame "]",
      "   " ++ paint frame "│",
      " " ++ paint frame "1 │" ++ " " ++ shown report.label text,
      margin ++ underline report.label text,
      margin ++ arrow report.label text ++ " " ++ report.label.message,
      margin,
      margin ++ paint "38;5;115" "Note" ++ ": " ++ caption report.note,
      paint frame "───╯" ]

def print : Printer := fun report => String.join ((rows report).map (· ++ "\n"))

end Terminal

end ArithLines
