import ArithLines.Complaint
import ArithLines.Reason
import ArithLines.Text.Quoted
import ArithLines.Token

/-! What happens in the course of a check, as records for a log. -/

namespace ArithLines

/-- How much a record matters, the least first. -/
inductive Severity where
  | trace
  | debug
  | info
  | warn
deriving DecidableEq

namespace Severity

def name : Severity → String
  | trace => "trace"
  | debug => "debug"
  | info => "info"
  | warn => "warn"

def rank : Severity → Nat
  | trace => 0
  | debug => 1
  | info => 2
  | warn => 3

def atLeast (least severity : Severity) : Bool := least.rank ≤ severity.rank

end Severity

inductive Event where
  | scanned (token : Token)
  /-- The first unrecognized token of a line. -/
  | unrecognized (text : List Char) (span : Span)
  | complained (complaint : Complaint)
  | stopped (token : Token)
  | judged (line : List Char) (reason : Option Reason)
  /-- A line of `size` bytes is cut to `kept`. -/
  | cut (number size kept : Nat)
  | finished (lines valid invalid skipped : Nat)
deriving DecidableEq

/-- The reason as log records name it. -/
def Reason.describe (reason : Reason) : String :=
  match reason with
  | .unrecognizedToken text => reason.name ++ "(" ++ Text.quote text ++ ")"
  | _ => reason.name

def Complaint.message : Complaint → String
  | unassignable => "'=' follows a non-identifier target"
  | unopened => "')' without matching '('"
  | endsInGroup => "end of input inside parentheses"
  | unclosed => "'(' never closed"
  | tooDeep limit => s!"parentheses nested deeper than {limit}"
  | trailing text => s!"trailing token {Text.quote text}"

namespace Event

def severity : Event → Severity
  | judged .. => .debug
  | finished .. => .info
  | cut .. => .warn
  | _ => .trace

def message : Event → String
  | scanned token => s!"scanned {token.kind.name} {Text.quote token.lexeme}"
  | unrecognized text span =>
    s!"invalid token {Text.quote text} at {span.start}..{span.stop}"
  | complained complaint => complaint.message
  | stopped token =>
    s!"parse failed at {Text.quote token.lexeme} ({token.span.start}..{token.span.stop})"
  | judged line none => s!"{Text.quote line} -> None"
  | judged line (some reason) => s!"{Text.quote line} -> Some({reason.describe})"
  | cut number size kept => s!"line {number} is {size} bytes, truncated to {kept}"
  | finished lines valid invalid skipped =>
    s!"{lines} lines read: {valid} valid, {invalid} invalid, {skipped} skipped"

end Event

end ArithLines
