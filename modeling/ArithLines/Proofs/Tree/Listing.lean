import ArithLines.Token.Cursor
import ArithLines.Tree

/-! What a tree says, apart from its spans: the tokens that it lists, the nodes that it is made of and
whether it is in normal form, in which the levels of precedence alone group the operands. -/

namespace ArithLines

namespace Operator

def kind : Operator → Kind
  | add => .plus
  | subtract => .minus
  | multiply => .star
  | divide => .slash

@[simp] theorem operator?_kind (operator : Operator) :
    operator.kind.operator? = some operator := by
  cases operator <;> rfl

theorem kind_of_operator? {kind : Kind} {operator : Operator}
    (h : kind.operator? = some operator) : kind = operator.kind := by
  cases kind <;> simp [Kind.operator?] at h <;> subst h <;> rfl

end Operator

/-- A token apart from its place. -/
structure Item where
  kind : Kind
  lexeme : List Char
deriving DecidableEq

def Token.item (token : Token) : Item := ⟨token.kind, token.lexeme⟩

namespace Item

def opening : Item := ⟨.leftParen, ['(']⟩

def closing : Item := ⟨.rightParen, [')']⟩

def equals : Item := ⟨.equal, ['=']⟩

def ofOperator (operator : Operator) : Item := ⟨operator.kind, [operator.symbol]⟩

end Item

namespace Expr

/-- The tokens of the tree in their order. -/
def listing : Expr → List Item
  | number text _ => [⟨.number, text⟩]
  | name text _ => [⟨.identifier, text⟩]
  | binary left operator right _ => left.listing ++ .ofOperator operator :: right.listing
  | group body _ => .opening :: (body.listing ++ [.closing])

/-- The nodes of the tree, each with the number of tokens before it, when `before` tokens stand
before the tree. -/
def nodes (before : Nat) : Expr → List (Nat × Expr)
  | tree@(number ..) | tree@(name ..) => [(before, tree)]
  | tree@(binary left _ right _) =>
    (before, tree) :: (left.nodes before ++ right.nodes (before + left.listing.length + 1))
  | tree@(group body _) => (before, tree) :: body.nodes (before + 1)

/-- The level of the operator at the root. A number, a name or a group has none. -/
def level? : Expr → Option Precedence
  | binary _ operator _ _ => some operator.precedence
  | _ => none

/-- No operand of a product is a sum, and no right operand is an application at the level of its
operator, so that operators of one level are grouped from the left. -/
def Normal : Expr → Prop
  | number .. | name .. => True
  | binary left operator right _ => left.Normal ∧ right.Normal ∧
    match operator.precedence with
    | .sum => right.level? ≠ some .sum
    | .product => left.level? ≠ some .sum ∧ right.level? = none
  | group body _ => body.Normal

/-- A tree in normal form that may be an operand at this level. -/
def IsOperand : Precedence → Expr → Prop
  | .sum, tree => tree.Normal ∧ tree.level? ≠ some .sum
  | .product, tree => tree.Normal ∧ tree.level? = none

/-- A tree in normal form that operators of this level may have made of such operands. -/
def IsChain : Precedence → Expr → Prop
  | .sum, tree => tree.Normal
  | .product, tree => tree.Normal ∧ tree.level? ≠ some .sum

/-- The number of groups around the innermost tokens. -/
def nesting : Expr → Nat
  | number .. | name .. => 0
  | binary left _ right _ => max left.nesting right.nesting
  | group body _ => body.nesting + 1

/-- The tree with all its spans at the beginning of the line. -/
def bare : Expr → Expr
  | number text _ => .number text ⟨0, 0⟩
  | name text _ => .name text ⟨0, 0⟩
  | binary left operator right _ => .binary left.bare operator right.bare ⟨0, 0⟩
  | group body _ => .group body.bare ⟨0, 0⟩

theorem IsOperand.isChain {level : Precedence} {tree : Expr} (h : tree.IsOperand level) :
    tree.IsChain level := by
  cases level with
  | sum => exact h.1
  | product => exact ⟨h.1, by rw [h.2]; nofun⟩

theorem IsChain.normal {level : Precedence} {tree : Expr} (h : tree.IsChain level) :
    tree.Normal := by
  cases level with
  | sum => exact h
  | product => exact h.1

theorem normal_binary {left right : Expr} {operator : Operator} {span : Span} :
    (binary left operator right span).Normal ↔
      left.IsChain operator.precedence ∧ right.IsOperand operator.precedence := by
  cases operator with
  | add | subtract => rfl
  | multiply | divide =>
    constructor
    · rintro ⟨hleft, hright, hleftLevel, hrightLevel⟩
      exact ⟨⟨hleft, hleftLevel⟩, hright, hrightLevel⟩
    · rintro ⟨⟨hleft, hleftLevel⟩, hright, hrightLevel⟩
      exact ⟨hleft, hright, hleftLevel, hrightLevel⟩

theorem IsChain.join {left right : Expr} {operator : Operator}
    (hleft : left.IsChain operator.precedence) (hright : right.IsOperand operator.precedence) :
    (left.join operator right).IsChain operator.precedence := by
  have hnormal : (left.join operator right).Normal := normal_binary.mpr ⟨hleft, hright⟩
  cases operator with
  | add | subtract => exact hnormal
  | multiply | divide => exact ⟨hnormal, nofun⟩

@[simp] theorem level?_bare (tree : Expr) : tree.bare.level? = tree.level? := by
  cases tree <;> rfl

@[simp] theorem nesting_bare (tree : Expr) : tree.bare.nesting = tree.nesting := by
  induction tree with
  | number | name => rfl
  | binary left operator right span ihl ihr => simp [bare, nesting, ihl, ihr]
  | group body span ih => simp [bare, nesting, ih]

@[simp] theorem normal_bare {tree : Expr} : tree.bare.Normal ↔ tree.Normal := by
  induction tree with
  | number | name => rfl
  | binary left operator right span ihl ihr => simp [bare, Normal, ihl, ihr]
  | group body span ih => exact ih

end Expr

namespace Statement

def listing : Statement → List Item
  | assignment target value _ => ⟨.identifier, target⟩ :: .equals :: value.listing
  | expression value _ => value.listing

/-- The nodes of the expression, each with the number of tokens before it. -/
def nodes : Statement → List (Nat × Expr)
  | assignment _ value _ => value.nodes 2
  | expression value _ => value.nodes 0

def bare : Statement → Statement
  | assignment target value _ => .assignment target value.bare ⟨0, 0⟩
  | expression value _ => .expression value.bare ⟨0, 0⟩

end Statement

end ArithLines
