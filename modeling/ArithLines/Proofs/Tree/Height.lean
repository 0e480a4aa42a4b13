import ArithLines.Proofs.Excerpt
import ArithLines.Proofs.RoundTrip

/-! How high the trees of accepted lines are. Each group on a path through a tree makes the tree one
higher, and so does each operator, but only the groups are limited. Main statements: the trees of lines
with a limited number of operators are of limited height, and those of all lines are not. -/

namespace ArithLines

open Descent (depthLimit)

namespace Expr

/-- The number of operators in the tree. -/
def operators (tree : Expr) : Nat := (tree.listing.map Item.kind).countP Kind.isOperator

@[simp] theorem operators_binary (left right : Expr) (operator : Operator) (span : Span) :
    (binary left operator right span).operators = left.operators + right.operators + 1 := by
  have hsign : operator.kind.isOperator = true := by simp [Kind.isOperator]
  rw [operators, listing, List.map_append, List.countP_append, List.map_cons]
  rw [List.countP_cons_of_pos (by exact hsign)]
  rfl

@[simp] theorem operators_group (body : Expr) (span : Span) :
    (group body span).operators = body.operators := by
  simp [operators, listing, Item.opening, Item.closing, Kind.isOperator, Kind.operator?]

@[simp] theorem height_bare (tree : Expr) : tree.bare.height = tree.height := by
  induction tree with
  | number | name => rfl
  | binary left operator right span ihl ihr => simp [bare, height, ihl, ihr]
  | group body span ih => simp [bare, height, ih]

theorem height_le (tree : Expr) : tree.height ≤ tree.operators + tree.nesting + 1 := by
  induction tree with
  | number | name => simp [height]
  | binary left operator right span ihl ihr =>
    rw [operators_binary, height, nesting]
    omega
  | group body span ih =>
    rw [operators_group, height, nesting]
    omega

/-! ### Trees as high as they can be -/

/-- `1+1+1` and so on, with so many operators. -/
def ones : Nat → Expr
  | 0 => .number ['1'] ⟨0, 0⟩
  | count + 1 => (ones count).binary .add (.number ['1'] ⟨0, 0⟩) ⟨0, 0⟩

/-- The tree in so many groups, one around the other. -/
def grouped (tree : Expr) : Nat → Expr
  | 0 => tree
  | count + 1 => .group (tree.grouped count) ⟨0, 0⟩

/-- A tree that a line can have, and which is as high as its groups and operators allow. -/
structure Steep (groups signs : Nat) (tree : Expr) : Prop where
  normal : tree.Normal
  worded : tree.Worded
  nesting : tree.nesting = groups
  operators : tree.operators = signs
  height : tree.height = signs + groups + 1

theorem steep_ones (count : Nat) : (ones count).Steep 0 count := by
  have hone : IsNumber ['1'] := .inl ⟨by simp, by simp⟩
  induction count with
  | zero => exact ⟨trivial, hone, rfl, rfl, rfl⟩
  | succ count ih =>
    refine ⟨⟨ih.normal, trivial, ?_⟩, ⟨ih.worded, hone⟩, ?_, ?_, ?_⟩
    · simp [Operator.precedence, level?]
    · simp [ones, Expr.nesting, ih.nesting]
    · rw [ones, operators_binary, ih.operators]
      rfl
    · simp [ones, Expr.height, ih.height]

theorem Steep.grouped {signs : Nat} {tree : Expr} (h : tree.Steep 0 signs) (count : Nat) :
    (tree.grouped count).Steep count signs := by
  induction count with
  | zero => exact h
  | succ count ih =>
    refine ⟨ih.normal, ih.worded, ?_, ?_, ?_⟩
    · rw [Expr.grouped, Expr.nesting, ih.nesting]
    · rw [Expr.grouped, operators_group, ih.operators]
    · rw [Expr.grouped, Expr.height, ih.height]
      omega

end Expr

theorem Spaced.tight (lexemes : List (List Char)) : Spaced lexemes lexemes.flatten := by
  induction lexemes with
  | nil => exact .space (by simp)
  | cons lexeme lexemes ih => exact @Spaced.lexeme [] _ _ _ (by simp) ih

/-- Every tree in normal form, with names and numbers that a line can have, is that of a line, if no
more groups are nested in it than may be open. -/
theorem exists_examine_of_normal {tree : Expr} (hnormal : tree.Normal) (hworded : tree.Worded)
    (hnesting : tree.nesting ≤ depthLimit) :
    ∃ line statement, (examine line).statement = some statement ∧
      statement.value.bare = tree.bare ∧ kinds line = tree.listing.map Item.kind := by
  have htext := Spaced.tight (tree.listing.map Item.lexeme)
  obtain ⟨tokens, hlayout, hitems⟩ :=
    htext.layout (tree.listing_proper hworded) tree.listing_apart 0
  obtain ⟨read, hspells, hbare⟩ := Statement.exists_spells (.ofExpr tree) hitems
  have hkinds : tokens.map Token.kind = tree.listing.map Item.kind := by
    rw [← hitems, List.map_map]
    rfl
  rw [← hlayout.tokens_eq] at hspells hkinds
  obtain ⟨last, hparse⟩ := Descent.parse_of_bare hspells hbare hnormal hnesting
  refine ⟨_, read, (examine_of_ok hparse).2, ?_, hkinds⟩
  rw [← Statement.value_bare, hbare]
  rfl

/-- Groups and operators may make the tree of a line as high as they allow. -/
theorem exists_height_eq (signs : Nat) :
    ∃ line statement, (kinds line).countP Kind.isOperator = signs ∧
      (examine line).statement = some statement ∧
      statement.value.height = signs + depthLimit + 1 := by
  have hsteep := (Expr.steep_ones signs).grouped depthLimit
  obtain ⟨line, statement, hstatement, hbare, hkinds⟩ :=
    exists_examine_of_normal hsteep.normal hsteep.worded (Nat.le_of_eq hsteep.nesting)
  refine ⟨line, statement, ?_, hstatement, ?_⟩
  · rw [hkinds]
    exact hsteep.operators
  · rw [← Expr.height_bare, hbare, Expr.height_bare]
    exact hsteep.height

/-! ### Trees of lines -/

theorem accepted_of_statement {line : List Char} {statement : Statement}
    (h : (examine line).statement = some statement) : (validate line).accepted = true := by
  by_contra haccepted
  rw [examine] at h
  exact absurd (h.symm.trans (if_neg haccepted)) (by simp)

/-- The tree of a line has the operators of the line and no more groups than may be open. -/
theorem operators_of_statement {line : List Char} {statement : Statement}
    (h : (examine line).statement = some statement) :
    statement.value.operators = (kinds line).countP Kind.isOperator ∧
      statement.value.nesting ≤ depthLimit := by
  obtain ⟨parsed, last, hparse⟩ := exists_parse_of_accepted (accepted_of_statement h)
  obtain rfl := Option.some.inj (h.symm.trans (examine_of_ok hparse).2)
  obtain ⟨machine, hreach, -, -⟩ := Descent.parse_ok hparse
  obtain ⟨hspells, -⟩ := Descent.spells_of_parse hparse
  refine ⟨?_, hspells.nesting_le hreach⟩
  have hlisting := hspells.listing (Layout.of_line line).lexeme_of_mark
  have hkinds : kinds line = statement.listing.map Item.kind := by
    rw [← hlisting, List.map_map]
    rfl
  rw [hkinds]
  cases statement with
  | expression value span => rfl
  | assignment target value span =>
    simp [Statement.listing, Statement.value, Expr.operators, Item.equals, Kind.isOperator,
      Kind.operator?]

/-- All trees of lines with so many operators are within a bound on the height if and only if that
leaves room for the operators, for 256 groups and for a number or a name in them. -/
theorem height_le_bound_iff (signs bound : Nat) :
    (∀ line statement, (kinds line).countP Kind.isOperator ≤ signs →
      (examine line).statement = some statement → statement.value.height ≤ bound) ↔
    signs + 257 ≤ bound := by
  constructor
  · intro h
    obtain ⟨line, statement, hsigns, hstatement, hheight⟩ := exists_height_eq signs
    have hbound := h line statement (Nat.le_of_eq hsigns) hstatement
    rwa [hheight] at hbound
  · intro hbound line statement hsigns hstatement
    obtain ⟨hoperators, hnesting⟩ := operators_of_statement hstatement
    have hheight := statement.value.height_le
    rw [depthLimit] at hnesting
    omega

/-- No bound on the height holds for the trees of all lines. -/
theorem not_exists_height_bound :
    ¬∃ bound, ∀ line statement, (examine line).statement = some statement →
      statement.value.height ≤ bound := by
  rintro ⟨bound, h⟩
  obtain ⟨line, statement, -, hstatement, hheight⟩ := exists_height_eq bound
  have hbound := h line statement hstatement
  omega

end ArithLines
