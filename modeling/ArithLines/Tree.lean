import ArithLines.Operator
import ArithLines.Span

/-! The tree of an accepted line. Every node carries the span of its text. -/

namespace ArithLines

inductive Expr where
  | number (text : List Char) (span : Span)
  | name (text : List Char) (span : Span)
  | binary (left : Expr) (operator : Operator) (right : Expr) (span : Span)
  | group (body : Expr) (span : Span)
deriving DecidableEq

namespace Expr

def span : Expr → Span
  | number _ span | name _ span | binary _ _ _ span | group _ span => span

/-- The application of an operator, which spans both operands. -/
def join (left : Expr) (operator : Operator) (right : Expr) : Expr :=
  .binary left operator right (left.span.through right.span)

def height : Expr → Nat
  | number .. | name .. => 1
  | binary left _ right _ => max left.height right.height + 1
  | group body _ => body.height + 1

end Expr

inductive Statement where
  | assignment (target : List Char) (value : Expr) (span : Span)
  | expression (value : Expr) (span : Span)
deriving DecidableEq

namespace Statement

def span : Statement → Span
  | assignment _ _ span | expression _ span => span

def value : Statement → Expr
  | assignment _ value _ | expression value _ => value

def ofExpr (value : Expr) : Statement := .expression value value.span

end Statement

end ArithLines
