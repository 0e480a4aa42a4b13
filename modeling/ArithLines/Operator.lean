/-! The four binary operators and the two levels of precedence at which they bind. -/

namespace ArithLines

/-- Operators of a sum bind less tightly than those of a product. -/
inductive Precedence where
  | sum
  | product
deriving DecidableEq

inductive Operator where
  | add
  | subtract
  | multiply
  | divide
deriving DecidableEq

namespace Operator

def precedence : Operator → Precedence
  | add | subtract => .sum
  | multiply | divide => .product

def symbol : Operator → Char
  | add => '+'
  | subtract => '-'
  | multiply => '*'
  | divide => '/'

end Operator

end ArithLines
