/-! What the descent may find wrong with the token at which it stops. -/

namespace ArithLines

inductive Complaint where
  /-- An `=` follows something that is not a single identifier. -/
  | unassignable
  /-- A closing parenthesis stands outside every group. -/
  | unopened
  /-- The line ends where a group needs an operand. -/
  | endsInGroup
  /-- The line ends where a group needs to be closed. -/
  | unclosed
  /-- A group would be one more than the limit allows. -/
  | tooDeep (limit : Nat)
  /-- Something follows a whole statement. -/
  | trailing (text : List Char)
deriving DecidableEq

end ArithLines
