import ArithLines.Proofs.Acceptance
import ArithLines.Proofs.Descent.Rebuilding
import ArithLines.Proofs.Spacing

/-! Lines made from trees. Main statement: the listing of a tree in normal form, with any line space
in it, is accepted and reads back as that tree. -/

namespace ArithLines

namespace Expr

/-- The leaves of the tree are numbers and names that a line can have. -/
def Worded : Expr → Prop
  | number text _ => IsNumber text
  | name text _ => IsName text
  | binary left _ right _ => left.Worded ∧ right.Worded
  | group body _ => body.Worded

theorem listing_proper {tree : Expr} (h : tree.Worded) : ∀ item ∈ tree.listing, item.Proper := by
  induction tree with
  | number => simpa [listing] using .number h
  | name => simpa [listing] using .name h
  | binary left operator right span ihl ihr =>
    simp only [listing, List.mem_append, List.mem_cons]
    rintro item (hitem | rfl | hitem)
    · exact ihl h.1 item hitem
    · cases operator <;> exact .mark rfl
    · exact ihr h.2 item hitem
  | group body span ih =>
    simp only [listing, List.mem_append, List.mem_cons, List.not_mem_nil, or_false]
    rintro item (rfl | hitem | rfl)
    · exact .mark rfl
    · exact ih h item hitem
    · exact .mark rfl

theorem listing_apart (tree : Expr) : tree.listing.IsChain Item.Apart := by
  induction tree with
  | number | name => exact .singleton _
  | binary left operator right span ihl ihr =>
    exact Item.apart_append ihl ihr (Item.isWord_ofOperator operator)
  | group body span ih => exact Item.apart_cons (Item.apart_append ih .nil rfl) rfl

/-- Tokens with the listing of a tree spell that tree, with the spans that they have. -/
theorem exists_spells (tree : Expr) {tokens : List Token}
    (h : tokens.map Token.item = tree.listing) :
    ∃ read : Expr, read.Spells tokens ∧ read.bare = tree.bare := by
  induction tree generalizing tokens with
  | number text span =>
    obtain ⟨token, rfl, hitem⟩ := List.map_eq_singleton_iff.mp h
    obtain ⟨hkind, hlexeme⟩ := Item.mk.inj hitem
    exact ⟨_, .number hkind, by rw [hlexeme]; rfl⟩
  | name text span =>
    obtain ⟨token, rfl, hitem⟩ := List.map_eq_singleton_iff.mp h
    obtain ⟨hkind, hlexeme⟩ := Item.mk.inj hitem
    exact ⟨_, .name hkind, by rw [hlexeme]; rfl⟩
  | binary left operator right span ihl ihr =>
    obtain ⟨before, more, rfl, hbefore, hmore⟩ := List.map_eq_append_iff.mp h
    obtain ⟨sign, after, rfl, hsign, hafter⟩ := List.map_eq_cons_iff.mp hmore
    obtain ⟨readLeft, hleft, hleftBare⟩ := ihl hbefore
    obtain ⟨readRight, hright, hrightBare⟩ := ihr hafter
    refine ⟨_, hleft.join (Item.mk.inj hsign).1 hright, ?_⟩
    simp only [join, bare, hleftBare, hrightBare]
  | group body span ih =>
    obtain ⟨opening, more, rfl, hopening, hmore⟩ := List.map_eq_cons_iff.mp h
    obtain ⟨inner, last, rfl, hinner, hlast⟩ := List.map_eq_append_iff.mp hmore
    obtain ⟨closing, rfl, hclosing⟩ := List.map_eq_singleton_iff.mp hlast
    obtain ⟨readBody, hbody, hbare⟩ := ih hinner
    refine ⟨_, .group (Item.mk.inj hopening).1 hbody (Item.mk.inj hclosing).1, ?_⟩
    simp only [bare, hbare]

end Expr

namespace Statement

def Worded : Statement → Prop
  | assignment target value _ => IsName target ∧ value.Worded
  | expression value _ => value.Worded

theorem listing_proper {statement : Statement} (h : statement.Worded) :
    ∀ item ∈ statement.listing, item.Proper := by
  cases statement with
  | expression value span => exact value.listing_proper h
  | assignment target value span =>
    simp only [listing, List.mem_cons]
    rintro item (rfl | rfl | hitem)
    · exact .name h.1
    · exact .mark rfl
    · exact Expr.listing_proper h.2 item hitem

theorem listing_apart (statement : Statement) : statement.listing.IsChain Item.Apart := by
  cases statement with
  | expression value span => exact value.listing_apart
  | assignment target value span =>
    exact .cons_cons (.inr rfl) (Item.apart_cons value.listing_apart rfl)

theorem exists_spells (statement : Statement) {tokens : List Token}
    (h : tokens.map Token.item = statement.listing) :
    ∃ read : Statement, read.Spells tokens ∧ read.bare = statement.bare := by
  cases statement with
  | expression value span =>
    obtain ⟨read, hread, hbare⟩ := value.exists_spells h
    exact ⟨_, .expression hread, congrArg (Statement.expression · ⟨0, 0⟩) hbare⟩
  | assignment target value span =>
    obtain ⟨name, more, rfl, hname, hmore⟩ := List.map_eq_cons_iff.mp h
    obtain ⟨equals, body, rfl, hequals, hbody⟩ := List.map_eq_cons_iff.mp hmore
    obtain ⟨hkind, hlexeme⟩ := Item.mk.inj hname
    obtain ⟨read, hread, hbare⟩ := value.exists_spells hbody
    refine ⟨_, .assignment hkind (Item.mk.inj hequals).1 hread, ?_⟩
    simp only [bare, hlexeme, hbare]

@[simp] theorem value_bare (statement : Statement) :
    statement.bare.value = statement.value.bare := by
  cases statement <;> rfl

end Statement

/-- A line parses as the statement that its tokens spell, if apart from spans that is a statement in
normal form with no more groups nested in it than may be open. -/
theorem Descent.parse_of_bare {line : List Char} {statement read : Statement}
    (hspells : read.Spells (Cursor.ofLine line).tokens) (hbare : read.bare = statement.bare)
    (hnormal : statement.value.Normal) (hnesting : statement.value.nesting ≤ depthLimit) :
    ∃ last, parse (.ofLine line) = (.ok read, last) := by
  have hvalue : read.value.bare = statement.value.bare := by
    rw [← Statement.value_bare, hbare, Statement.value_bare]
  refine parse_of_spells hspells ?_ ?_
  · rw [← Expr.normal_bare, hvalue, Expr.normal_bare]
    exact hnormal
  · rw [← Expr.nesting_bare, hvalue, Expr.nesting_bare]
    exact hnesting

/-- A tree in normal form is read back, up to spans, from every text in which its tokens stand in
their order with any line space around them, if its names and numbers are ones that a line can have
and at most 256 groups are nested in it. -/
theorem statement_of_spaced_listing (statement : Statement) (text : List Char)
    (hnormal : statement.value.Normal) (hworded : statement.Worded)
    (hnesting : statement.value.nesting ≤ 256)
    (htext : Spaced (statement.listing.map Item.lexeme) text) :
    (validate text).accepted = true ∧
      ∃ parsed, (examine text).statement = some parsed ∧ parsed.bare = statement.bare := by
  obtain ⟨tokens, hlayout, hitems⟩ :=
    htext.layout (statement.listing_proper hworded) statement.listing_apart 0
  obtain ⟨parsed, hspells, hbare⟩ := statement.exists_spells hitems
  have hvalue : parsed.value.bare = statement.value.bare := by
    rw [← Statement.value_bare, hbare, Statement.value_bare]
  have hparsedNormal : parsed.value.Normal := by
    rw [← Expr.normal_bare, hvalue, Expr.normal_bare]
    exact hnormal
  have hparsedNesting : parsed.value.nesting ≤ Descent.depthLimit := by
    rw [← Expr.nesting_bare, hvalue, Expr.nesting_bare]
    exact hnesting
  rw [← hlayout.tokens_eq] at hspells
  obtain ⟨last, hparse⟩ := Descent.parse_of_spells hspells hparsedNormal hparsedNesting
  obtain ⟨hverdict, hstatement⟩ := examine_of_ok hparse
  refine ⟨?_, parsed, hstatement, hbare⟩
  rw [validate, hverdict]
  rfl

/-- A tab, no space at all and single spaces stand between the tokens of `x=(1+2.5)*y`. -/
theorem statement_of_spaced_listing_group :
    ∃ statement : Statement, statement.value.Normal ∧ statement.Worded ∧
      statement.value.nesting = 1 ∧
      Spaced (statement.listing.map Item.lexeme) "\tx=(1 +2.5)*y ".toList ∧
      (validate "\tx=(1 +2.5)*y ".toList).accepted = true ∧
      ∃ parsed, (examine "\tx=(1 +2.5)*y ".toList).statement = some parsed ∧
        parsed.bare = statement.bare := by
  let sum : Expr := .binary (.number ['1'] ⟨0, 0⟩) .add (.number ['2', '.', '5'] ⟨0, 0⟩) ⟨0, 0⟩
  let product : Expr := .binary (.group sum ⟨0, 0⟩) .multiply (.name ['y'] ⟨0, 0⟩) ⟨0, 0⟩
  let statement : Statement := .assignment ['x'] product ⟨0, 0⟩
  have hnormal : statement.value.Normal := by
    simp [statement, product, sum, Statement.value, Expr.Normal, Operator.precedence, Expr.level?]
  have hdigit {c : Char} (h : c.isDigit = true) : AreDigits [c] :=
    ⟨List.cons_ne_nil c [], List.forall_mem_singleton.mpr h⟩
  have hletter {c : Char} (h : isNameStart c = true) : IsName [c] :=
    ⟨c, [], rfl, h, List.forall_mem_nil _⟩
  have hhalf : IsNumber ['2', '.', '5'] := .inr ⟨['2'], ['5'], rfl, hdigit rfl, hdigit rfl⟩
  have hworded : statement.Worded := ⟨hletter rfl, ⟨.inl (hdigit rfl), hhalf⟩, hletter rfl⟩
  have hspace {space : Char} (h : isLineSpace space = true) : ∀ c ∈ [space], isLineSpace c = true :=
    List.forall_mem_singleton.mpr h
  have htight {lexeme text : List Char} {lexemes : List (List Char)} (h : Spaced lexemes text) :
      Spaced (lexeme :: lexemes) (lexeme ++ text) :=
    @Spaced.lexeme [] lexeme text lexemes (List.forall_mem_nil _) h
  have htext : Spaced (statement.listing.map Item.lexeme) "\tx=(1 +2.5)*y ".toList :=
    @Spaced.lexeme ['\t'] ['x'] _ _ (hspace rfl) <| htight <| htight <| htight <|
      @Spaced.lexeme [' '] ['+'] _ _ (hspace rfl) <| htight <| htight <| htight <| htight <|
      .space (hspace rfl)
  obtain ⟨haccepted, htree⟩ :=
    statement_of_spaced_listing statement _ hnormal hworded (by decide) htext
  exact ⟨statement, hnormal, hworded, rfl, htext, haccepted, htree⟩

end ArithLines
