import ArithLines.Verdict

/-! The report of a rejected line: what is said of the line, the characters that are marked in it,
and a piece of advice. How a report looks is up to the printer that turns it into text. -/

namespace ArithLines

inductive Colour where
  | red
  | magenta
  | yellow
  | cyan
deriving DecidableEq

/-- A sentence after a coloured title. -/
structure Caption where
  title : String
  colour : Colour
  sentence : String
deriving DecidableEq

/-- A mark on some characters of a line, with a message beside it. -/
structure Label where
  span : Span
  colour : Colour
  message : String
deriving DecidableEq

structure Report where
  /-- The name under which the line is shown. -/
  name : String
  line : List Char
  /-- The character to which the report as a whole points. -/
  position : Nat
  heading : Caption
  label : Label
  note : Caption
deriving DecidableEq

abbrev Printer : Type := Report → String

/-- The part of `span` within a line of `length` characters. It marks at least one character if the
line has any, so that a failure at the end of the line is shown at its last character. -/
def Span.clip (span : Span) (length : Nat) : Span :=
  let start := min span.start (length - 1)
  ⟨start, max (min span.stop length) (min (start + 1) length)⟩

namespace Reason

def colour : Reason → Colour
  | unrecognizedToken _ => .red
  | invalidAssignmentTarget => .magenta
  | _ => .yellow

def report (reason : Reason) (span : Span) (line : List Char) (name : String) : Report :=
  let shown := span.clip line.length
  { name
    line
    position := shown.start
    heading := { title := "Syntax Error", colour := reason.colour, sentence := reason.message }
    label := { span := shown, colour := reason.colour, message := reason.message }
    note := { title := "help", colour := .cyan, sentence := reason.help } }

end Reason

def lineName : String := "<line>"

namespace Verdict

/-- The report of a rejected line. There is none of an accepted one. -/
def report? (verdict : Verdict) (line : List Char) (name : String) : Option Report :=
  verdict.reason.map fun reason => reason.report (verdict.span.getD (.single 0)) line name

@[simp] theorem report?_reject (reason : Reason) (span : Span) (line : List Char) (name : String) :
    (reject reason (some span)).report? line name = some (reason.report span line name) := rfl

end Verdict

end ArithLines
