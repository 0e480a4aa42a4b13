import ArithLines.Complaint
import ArithLines.Reason
import ArithLines.Span

/-! What the scan and the descent find in a line. They only raise flags and mark places; `settle`
chooses the one reason afterwards. An unrecognized token takes the place of a failure marked before
it, and of two of the same sort the first one stays. -/

namespace ArithLines

structure Findings where
  /-- The line begins with an identifier and `=`. -/
  assignment : Bool := false
  complexTarget : Bool := false
  /-- The token consumed last is an operator or `=`. -/
  awaitsOperand : Bool := false
  unrecognized : Bool := false
  nestedTooDeep : Bool := false
  unbalanced : Bool := false
  trailing : Bool := false
  failed : Bool := false
  unrecognizedText : Option (List Char) := none
  blame : Option Span := none
  reason : Option Reason := none
deriving DecidableEq

namespace Findings

/-- Takes note of an unrecognized token, if it is the first. -/
def recordUnrecognized (findings : Findings) (text : List Char) (span : Span) : Findings :=
  if findings.unrecognized then findings
  else { findings with unrecognized := true, unrecognizedText := some text, blame := some span }

def complain (findings : Findings) : Complaint → Findings
  | .unassignable => { findings with complexTarget := true }
  | .unopened | .endsInGroup | .unclosed => { findings with unbalanced := true }
  | .tooDeep _ => { findings with nestedTooDeep := true }
  | .trailing _ => { findings with trailing := true }

/-- Marks a failure, which is blamed on `span` unless a place is blamed already. -/
def failAt (findings : Findings) (span : Span) : Findings :=
  { findings with failed := true, blame := findings.blame.or (some span) }

/-- The reason for a rejection: the first flag raised, in this order, tells. -/
def select (findings : Findings) : Reason :=
  if findings.unrecognized then .unrecognizedToken (findings.unrecognizedText.getD [])
  else if findings.nestedTooDeep then .nestingTooDeep
  else if findings.complexTarget then .invalidAssignmentTarget
  else if findings.awaitsOperand then .incompleteExpression
  else if findings.unbalanced then .unbalancedParentheses
  else if findings.trailing then .unexpectedTrailingInput
  else .genericInvalid

def rejects (findings : Findings) : Bool := findings.failed || findings.unrecognized

/-- Settles the reason of a rejected line and leaves the findings of any other as they are. -/
def settle (findings : Findings) : Findings :=
  if findings.rejects then { findings with failed := true, reason := some findings.select }
  else findings

def reason? (findings : Findings) : Option Reason :=
  if findings.rejects then some findings.select else none

theorem recordUnrecognized_of_unrecognized {findings : Findings} (h : findings.unrecognized = true)
    (text : List Char) (span : Span) : findings.recordUnrecognized text span = findings := by
  simp [recordUnrecognized, h]

@[simp] theorem recordUnrecognized_unrecognized (findings : Findings) (text : List Char)
    (span : Span) : (findings.recordUnrecognized text span).unrecognized = true := by
  unfold recordUnrecognized; split <;> simp_all

@[simp] theorem settle_rejects (findings : Findings) :
    findings.settle.rejects = findings.rejects := by
  unfold settle; split <;> simp_all [rejects]

@[simp] theorem settle_select (findings : Findings) : findings.settle.select = findings.select := by
  unfold settle; split <;> rfl

theorem settle_settle (findings : Findings) : findings.settle.settle = findings.settle := by
  by_cases h : findings.rejects = true
  · have hs : findings.settle.rejects = true := by simpa using h
    rw [settle, if_pos hs, settle_select]
    simp [settle, h]
  · simp [settle, h]

end Findings

end ArithLines
