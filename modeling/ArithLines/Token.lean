import ArithLines.Operator
import ArithLines.Span

/-! Tokens and their kinds. A line is the list of its characters, so a token's span gives the places
of its lexeme in that list. -/

namespace ArithLines

/-- `invalid` is the kind of characters that begin no token of the language, and of runs of digits
and points that are no number. -/
inductive Kind where
  | leftParen
  | rightParen
  | minus
  | plus
  | slash
  | star
  | equal
  | identifier
  | number
  | invalid
  | endOfLine
deriving DecidableEq

namespace Kind

def operator? : Kind → Option Operator
  | plus => some .add
  | minus => some .subtract
  | star => some .multiply
  | slash => some .divide
  | _ => none

def isOperator (kind : Kind) : Bool := kind.operator?.isSome

/-- Whether an operand has to follow a token of this kind, as it does an operator or `=`. -/
def awaitsOperand (kind : Kind) : Bool := kind.isOperator || kind = equal

def name : Kind → String
  | leftParen => "LeftParen"
  | rightParen => "RightParen"
  | minus => "Minus"
  | plus => "Plus"
  | slash => "Slash"
  | star => "Star"
  | equal => "Equal"
  | identifier => "Identifier"
  | number => "Number"
  | invalid => "Invalid"
  | endOfLine => "Eof"

def ofPunctuation? : Char → Option Kind
  | '(' => some leftParen
  | ')' => some rightParen
  | '-' => some minus
  | '+' => some plus
  | '*' => some star
  | '/' => some slash
  | '=' => some equal
  | _ => none

end Kind

/-- The operator of a token of this kind, if it binds at the given level. -/
def Precedence.operator? (level : Precedence) (kind : Kind) : Option Operator :=
  kind.operator?.filter fun operator => operator.precedence = level

theorem Precedence.ne_endOfLine_of_operator? {level : Precedence} {kind : Kind} {operator : Operator}
    (h : level.operator? kind = some operator) : kind ≠ .endOfLine := by
  rintro rfl
  simp [Precedence.operator?, Kind.operator?] at h

structure Token where
  kind : Kind
  lexeme : List Char
  span : Span
deriving DecidableEq

namespace Token

/-- The token that stands for the end of a line of `length` characters. -/
def endOfLine (length : Nat) : Token := ⟨.endOfLine, [], .single length⟩

/-- The end of the line counts nothing, every other token one. -/
def weight (token : Token) : Nat := if token.kind = .endOfLine then 0 else 1

@[simp] theorem weight_endOfLine (length : Nat) : (endOfLine length).weight = 0 := rfl

theorem weight_le_one (token : Token) : token.weight ≤ 1 := by
  unfold weight; split <;> omega

theorem weight_eq_one {token : Token} (h : token.kind ≠ .endOfLine) : token.weight = 1 := by
  simp [weight, h]

end Token

end ArithLines
