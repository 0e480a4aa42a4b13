import ArithLines.Proofs.Acceptance
import ArithLines.Proofs.Descent.Building

/-! The tree of an accepted line says what the line says. Main statement: it lists the tokens of the
line, its spans are where they stand, and it is in normal form. -/

namespace ArithLines

/-- An accepted line has a tree that lists its tokens. The statement and every node of its expression
have the span from the first of their tokens to the last, and no operand is grouped in another way
than by the levels of precedence and from the left. -/
theorem accepted_tree_decodes (line : List Char) (h : (validate line).accepted = true) :
    ∃ statement, (examine line).statement = some statement ∧
      statement.listing = (Cursor.ofLine line).tokens.map Token.item ∧
      statement.span.RunsOver (Cursor.ofLine line).tokens ∧
      (∀ placed ∈ statement.nodes, placed.2.span.RunsOver
        (((Cursor.ofLine line).tokens.drop placed.1).take placed.2.listing.length)) ∧
      statement.value.Normal := by
  obtain ⟨parsed, last, hparse⟩ := exists_parse_of_accepted h
  obtain ⟨-, hstatement⟩ := examine_of_ok hparse
  obtain ⟨hspells, hnormal⟩ := Descent.spells_of_parse hparse
  have hlisting := hspells.listing (Layout.of_line line).lexeme_of_mark
  exact ⟨parsed, hstatement, hlisting.symm, hspells.runsOver, hspells.nodes, hnormal⟩

/-- In `x=(1+2)*3` the group, which is the left operand of the product, stands from the third
character to the seventh. -/
theorem accepted_tree_decodes_group :
    (validate "x=(1+2)*3".toList).accepted = true ∧
    ∃ statement body, (examine "x=(1+2)*3".toList).statement = some statement ∧
      (2, .group body ⟨2, 7⟩) ∈ statement.nodes ∧
      statement.listing = (Cursor.ofLine "x=(1+2)*3".toList).tokens.map Token.item ∧
      Span.RunsOver (((Cursor.ofLine "x=(1+2)*3".toList).tokens.drop 2).take 5) ⟨2, 7⟩ ∧
      statement.value.Normal := by
  have haccepted : (validate "x=(1+2)*3".toList).accepted = true := by decide +kernel
  let body : Expr := .binary (.number ['1'] ⟨3, 4⟩) .add (.number ['2'] ⟨5, 6⟩) ⟨3, 6⟩
  have htree : (examine "x=(1+2)*3".toList).statement = some (.assignment ['x']
      (.binary (.group body ⟨2, 7⟩) .multiply (.number ['3'] ⟨8, 9⟩) ⟨2, 9⟩) ⟨0, 9⟩) := by
    decide +kernel
  obtain ⟨statement, hstatement, hlisting, -, hnodes, hnormal⟩ :=
    accepted_tree_decodes "x=(1+2)*3".toList haccepted
  obtain rfl := Option.some.inj (hstatement.symm.trans htree)
  have hgroup := hnodes (2, .group body ⟨2, 7⟩) (by decide)
  exact ⟨haccepted, _, body, hstatement, by decide, hlisting, hgroup, hnormal⟩

end ArithLines
