import ArithLines.Report
import ArithLines.Text.Lines
import ArithLines.Text.Trim
import ArithLines.Text.Utf8

/-! A session in which lines are checked as they are typed. Nothing is kept from one line to the
next, so a session is a reply to each line up to the one that ends it. -/

namespace ArithLines.Session

def banner (program version : String) : String :=
  program ++ " v" ++ version ++ "\nType 'exit' or press Ctrl+D to quit\n\n"

def prompt : String := "> "

def farewells : List (List Char) := ["exit".toList, "quit".toList]

structure Reply where
  output : String := ""
  errors : String := ""
  isLast : Bool := false
deriving DecidableEq

def reply (printer : Printer) (bytes : List UInt8) : Reply :=
  match Text.Utf8.decode? bytes with
  | none =>
    { errors := "Error reading input: stream did not contain valid UTF-8\n", isLast := true }
  | some typed =>
    let line := Text.trimEnd isLineSpace typed
    if line.all isLineSpace then {}
    else if farewells.contains (Text.trim Text.isBlank line) then
      { output := "Goodbye!\n", isLast := true }
    else
      let verdict := validate line
      { output := String.ofList (verdict.render line ++ ['\n'])
        errors := (verdict.report? line lineName).elim "" printer }

/-- The reply where the input ends. -/
def farewell : Reply := { output := "\n", isLast := true }

/-- The replies to lines, the one to the end of the input included if the session gets there. -/
def replies (printer : Printer) : List (List UInt8) → List Reply
  | [] => [farewell]
  | line :: lines =>
    let first := reply printer line
    if first.isLast then [first] else first :: replies printer lines

/-- What a session on the given input writes after its banner. -/
def output (printer : Printer) (bytes : List UInt8) : String :=
  String.join ((replies printer (Text.lines bytes)).map fun reply => prompt ++ reply.output)

def errors (printer : Printer) (bytes : List UInt8) : String :=
  String.join ((replies printer (Text.lines bytes)).map Reply.errors)

end ArithLines.Session
