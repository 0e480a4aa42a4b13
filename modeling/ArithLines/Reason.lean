/-! The reasons for which a line is rejected, and what is said of each. -/

namespace ArithLines

inductive Reason where
  | unrecognizedToken (text : List Char)
  | nestingTooDeep
  | invalidAssignmentTarget
  | incompleteExpression
  | unbalancedParentheses
  | unexpectedTrailingInput
  | genericInvalid
deriving DecidableEq

namespace Reason

def message : Reason → String
  | unrecognizedToken text => "unrecognized token '" ++ String.ofList text ++ "'"
  | nestingTooDeep => "expression nested too deeply"
  | invalidAssignmentTarget => "invalid assignment target"
  | incompleteExpression => "incomplete expression"
  | unbalancedParentheses => "unbalanced parentheses"
  | unexpectedTrailingInput => "unexpected trailing input"
  | genericInvalid => "invalid expression"

/-- The name of the reason in log records, without the text of the token. -/
def name : Reason → String
  | unrecognizedToken _ => "UnrecognizedToken"
  | nestingTooDeep => "NestingTooDeep"
  | invalidAssignmentTarget => "InvalidAssignmentTarget"
  | incompleteExpression => "IncompleteExpression"
  | unbalancedParentheses => "UnbalancedParentheses"
  | unexpectedTrailingInput => "UnexpectedTrailingInput"
  | genericInvalid => "GenericInvalid"

def help : Reason → String
  | unrecognizedToken _ =>
    "Only identifiers, numbers, '+', '-', '*', '/', '=', '(' and ')' are allowed."
  | nestingTooDeep => "Parentheses may be nested at most 256 levels deep."
  | invalidAssignmentTarget =>
    "The left-hand side of '=' must be a single identifier. Example: x = a + b"
  | incompleteExpression => "An operator must be followed by an operand."
  | unbalancedParentheses =>
    "Every opening parenthesis '(' must have a matching closing parenthesis ')'."
  | unexpectedTrailingInput =>
    "A line holds exactly one expression or assignment; remove the extra tokens."
  | genericInvalid => "Expected an identifier, a number or a parenthesized expression."

end Reason

end ArithLines
