import ArithLines.Descent

/-! The verdict on one line: accepted, or rejected for one reason at one place. -/

namespace ArithLines

structure Verdict where
  accepted : Bool
  reason : Option Reason
  span : Option Span
deriving DecidableEq

namespace Verdict

def accept : Verdict := ⟨true, none, none⟩

def reject (reason : Reason) (span : Option Span) : Verdict := ⟨false, some reason, span⟩

def ofFindings (findings : Findings) : Verdict :=
  match findings.reason? with
  | none => accept
  | some reason => reject reason findings.blame

def message? (verdict : Verdict) : Option String := verdict.reason.map Reason.message

def words (verdict : Verdict) : String :=
  match verdict.accepted, verdict.reason with
  | false, some reason => "invalid: " ++ reason.message
  | _, _ => "valid"

/-- The line with the verdict on it. -/
def render (verdict : Verdict) (line : List Char) : List Char :=
  line ++ " -- ".toList ++ verdict.words.toList

@[simp] theorem words_reject (reason : Reason) (span : Option Span) :
    (reject reason span).words = "invalid: " ++ reason.message := rfl

end Verdict

/-- All that the check of one line yields. -/
structure Examination where
  verdict : Verdict
  statement : Option Statement
  /-- What happened, oldest first. -/
  events : List Event
deriving DecidableEq

def examine (line : List Char) : Examination :=
  let (result, last) := Descent.parse (.ofReading (.ofLine line {}))
  let verdict := Verdict.ofFindings last.findings
  { verdict
    statement := if verdict.accepted then result.toOption else none
    events := (last.note (.judged line verdict.reason)).reading.events.reverse }

def validate (line : List Char) : Verdict := (examine line).verdict

end ArithLines
