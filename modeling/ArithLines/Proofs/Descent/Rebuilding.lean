import ArithLines.Proofs.Descent.Building

/-! The descent builds every tree in normal form from the tokens that spell it, if no more groups are
nested in it than may be open. -/

namespace ArithLines.Descent

open ArithLines.Expr

variable {line : List Char} {rest more : List Token} {level : Precedence} {state : State}
  {tree left right : Expr}

/-- The operand that begins in `state` is the tree, and the tokens `rest` are to come after it. -/
def Takes (line : List Char) (level : Precedence) (state : State) (tree : Expr)
    (rest : List Token) : Prop :=
  ∃ next nearer, operand level state = .parsed tree next nearer ∧ next.Faces line rest ∧
    next.depth = state.depth

/-- The chain that begins in `state` comes to the tree, which it may extend by the tokens `rest`. -/
def Continues (line : List Char) (level : Precedence) (state : State) (tree : Expr)
    (rest : List Token) : Prop :=
  ∃ next nearer, chain level state = extend level tree next nearer ∧ next.Faces line rest ∧
    next.depth = state.depth

theorem Takes.continues (h : Takes line level state tree rest) :
    Continues line level state tree rest := by
  obtain ⟨next, nearer, hoperand, hfaces, hdepth⟩ := h
  refine ⟨next, nearer, ?_, hfaces, hdepth⟩
  rw [chain, hoperand]

namespace Continues

theorem ends (h : Continues line level state tree rest)
    (hends : level.operator? (rest.headD (.endOfLine line.length)).kind = none) :
    ∃ next nearer, chain level state = .parsed tree next nearer ∧ next.Faces line rest ∧
      next.depth = state.depth := by
  obtain ⟨next, nearer, hchain, hfaces, hdepth⟩ := h
  refine ⟨next, nearer, ?_, hfaces, hdepth⟩
  rw [hchain, extend_ends]
  rw [hfaces.current, hends]

/-- A chain of products is an operand of a sum. -/
theorem takes (h : Continues line .product state tree rest)
    (hends : Precedence.product.operator? (rest.headD (.endOfLine line.length)).kind = none) :
    Takes line .sum state tree rest := by
  obtain ⟨next, nearer, hchain, hfaces, hdepth⟩ := h.ends hends
  refine ⟨next, nearer, ?_, hfaces, hdepth⟩
  rw [operand, hchain]

/-- A chain takes in the operator that follows it and the operand after that. -/
theorem join {sign : Token} {operator : Operator}
    (h : Continues line level state left (sign :: more))
    (hsign : level.operator? sign.kind = some operator)
    (hright : ∀ next : State, next.Faces line more → next.depth = state.depth →
      Takes line level next right rest) :
    Continues line level state (left.join operator right) rest := by
  obtain ⟨next, nearer, hchain, hfaces, hdepth⟩ := h
  have hcurrent : next.current = sign := hfaces.current
  obtain ⟨last, shorter, hoperand, hlast, hlastDepth⟩ :=
    hright next.advance hfaces.advance (by simpa using hdepth)
  rw [← hcurrent] at hsign
  obtain ⟨nearer', hextend⟩ := extend_joins left nearer hsign hoperand
  exact ⟨last, nearer', hchain.trans hextend, hlast, by simpa [hdepth] using hlastDepth⟩

end Continues

/-- The parts of the descent that may begin in `state` come to the tree before the tokens `rest`. -/
structure Rebuilds (line : List Char) (state : State) (tree : Expr) (rest : List Token) : Prop where
  operand : ∀ level, tree.IsOperand level →
    EndsOperand level (rest.headD (.endOfLine line.length)).kind → Takes line level state tree rest
  chain : ∀ level, tree.IsChain level →
    EndsOperand level (rest.headD (.endOfLine line.length)).kind →
    Continues line level state tree rest

namespace Rebuilds

theorem of_factor (h : Takes line .product state tree rest) : Rebuilds line state tree rest where
  operand level _ hends := by
    cases level with
    | sum => exact h.continues.takes hends
    | product => exact h
  chain level _ hends := by
    cases level with
    | sum => exact (h.continues.takes hends).continues
    | product => exact h.continues

theorem of_join {precedence : Precedence} (hlevel : tree.level? = some precedence)
    (h : EndsOperand precedence (rest.headD (.endOfLine line.length)).kind →
      Continues line precedence state tree rest) :
    Rebuilds line state tree rest := by
  cases precedence with
  | sum =>
    refine ⟨fun level htree _ => ?_, fun level htree hends => ?_⟩
    · cases level with
      | sum => exact absurd hlevel htree.2
      | product => exact nomatch hlevel.symm.trans htree.2
    · cases level with
      | sum => exact h hends
      | product => exact absurd hlevel htree.2
  | product =>
    refine ⟨fun level htree hends => ?_, fun level _ hends => ?_⟩
    · cases level with
      | sum => exact (h trivial).takes hends
      | product => exact nomatch hlevel.symm.trans htree.2
    · cases level with
      | sum => exact ((h trivial).takes hends).continues
      | product => exact h trivial

end Rebuilds

theorem takes_word {token : Token} (h : state.Faces line (token :: rest))
    (hkind : token.kind = .number ∧ tree = .number token.lexeme token.span ∨
      token.kind = .identifier ∧ tree = .name token.lexeme token.span) :
    Takes line .product state tree rest := by
  obtain rfl : state.current = token := h.current
  obtain ⟨nearer, hfactor⟩ := factor_of_word hkind
  refine ⟨state.advance, nearer, ?_, h.advance, state.advance_depth⟩
  rw [operand, hfactor]

theorem takes_group {opening closing : Token} {body : Expr}
    (h : state.Faces line (opening :: more)) (hopening : opening.kind = .leftParen)
    (hclosing : closing.kind = .rightParen) (hroom : state.depth < depthLimit)
    (hbody : Continues line .sum state.advance.opened body (closing :: rest)) :
    Takes line .product state (.group body (opening.span.through closing.span)) rest := by
  obtain rfl : state.current = opening := h.current
  have hends : Precedence.sum.operator? ((closing :: rest).headD (.endOfLine line.length)).kind =
      none := by
    rw [List.headD_cons, hclosing]
    rfl
  obtain ⟨next, nearer, hchain, hfaces, hdepth⟩ := hbody.ends hends
  obtain rfl : next.current = closing := hfaces.current
  obtain ⟨shorter, hgroup⟩ := group_closes hopening (Nat.not_le_of_lt hroom) hchain hclosing
  refine ⟨next.advance.closed, shorter, ?_, hfaces.advance.closed, ?_⟩
  · rw [operand, factor_of_opening hopening, hgroup]
  · simp [State.closed, hdepth]

theorem rebuilds_of_spells {tokens : List Token} (h : tree.Spells tokens) (hnormal : tree.Normal) :
    ∀ (state : State) (rest : List Token), state.Faces line (tokens ++ rest) →
      state.depth + tree.nesting ≤ depthLimit → Rebuilds line state tree rest := by
  induction h with
  | number hkind =>
    intro state rest hfaces _
    exact .of_factor (takes_word hfaces (.inl ⟨hkind, rfl⟩))
  | name hkind =>
    intro state rest hfaces _
    exact .of_factor (takes_word hfaces (.inr ⟨hkind, rfl⟩))
  | @binary before after sign left right operator span hleft hsign hright hspan ihl ihr =>
    intro state rest hfaces hnesting
    obtain ⟨hchain, hoperand⟩ := normal_binary.mp hnormal
    rw [Expr.nesting] at hnesting
    rw [List.append_assoc] at hfaces
    rw [hleft.eq_join hright hspan]
    refine .of_join rfl fun hends => ?_
    have hfirst := (ihl hchain.normal state _ hfaces (by omega)).chain _ hchain (by
      rw [List.cons_append, List.headD_cons, hsign]
      cases operator <;> trivial)
    have hoperator : operator.precedence.operator? sign.kind = some operator := by
      simp [Precedence.operator?, hsign]
    refine hfirst.join hoperator fun next hnext hdepth => ?_
    exact (ihr hoperand.isChain.normal next rest hnext (by omega)).operand _ hoperand hends
  | @group opening closing body inner hopening hbody hclosing ih =>
    intro state rest hfaces hnesting
    rw [Expr.nesting] at hnesting
    rw [List.cons_append, List.append_assoc] at hfaces
    have hroom : state.depth < depthLimit := by omega
    refine .of_factor (takes_group hfaces hopening hclosing hroom ?_)
    have hinner := ih hnormal state.advance.opened (closing :: rest) hfaces.advance.opened (by
      rw [opened_advance_depth]
      omega)
    refine hinner.chain .sum hnormal ?_
    rw [List.headD_cons, hclosing]
    rfl

theorem expression_of_spells {tokens : List Token} (hfaces : state.Faces line tokens)
    (hspells : tree.Spells tokens) (hnormal : tree.Normal)
    (hnesting : state.depth + tree.nesting ≤ depthLimit) :
    ∃ next, expression state = (.ok tree, next) ∧ next.current.kind = .endOfLine := by
  have hrebuilds := rebuilds_of_spells hspells hnormal state [] (by simpa using hfaces) hnesting
  obtain ⟨next, nearer, hchain, hnext, -⟩ := (hrebuilds.chain .sum hnormal rfl).ends rfl
  refine ⟨next, ?_, by rw [hnext.current]; rfl⟩
  rw [expression, hchain]
  rfl

/-- A line parses as the statement that its tokens spell, if that is in normal form and no more groups
are nested in it than may be open. -/
theorem parse_of_spells {statement : Statement}
    (hspells : statement.Spells (Cursor.ofLine line).tokens) (hnormal : statement.value.Normal)
    (hnesting : statement.value.nesting ≤ depthLimit) :
    ∃ last, parse (.ofLine line) = (.ok statement, last) := by
  have hfaces := faces_ofLine line
  have hdepth :
      (State.ofLine line).expressionStart.depth + statement.value.nesting ≤ depthLimit := by
    rw [State.expressionStart_depth]
    exact Nat.le_trans (Nat.le_of_eq (Nat.zero_add _)) hnesting
  generalize (Cursor.ofLine line).tokens = tokens at hfaces hspells
  cases hspells with
  | @expression _ value hvalue =>
    have hform : Machine.beginsAssignment (tokens.map Token.kind) = false := by
      by_contra hassignment
      obtain ⟨target, equals, body, rfl, -, hequals⟩ :=
        Machine.exists_of_beginsAssignment (by simpa using hassignment)
      exact hvalue.kind_ne_equal equals (by simp) hequals
    have hstart := (hfaces.start_of_expression hform).1
    obtain ⟨next, hexpression, hend⟩ := expression_of_spells hstart hvalue hnormal hdepth
    refine ⟨next, parse_eq_ok_iff.mpr ⟨?_, hend⟩⟩
    rw [hfaces.statement_of_expression hform, hexpression]
    rfl
  | assignment htarget hequals hvalue =>
    have hstart := (hfaces.start_of_assignment htarget hequals).1
    obtain ⟨next, hexpression, hend⟩ := expression_of_spells hstart hvalue hnormal hdepth
    refine ⟨next, parse_eq_ok_iff.mpr ⟨?_, hend⟩⟩
    rw [hfaces.statement_of_assignment htarget hequals, hexpression]
    rfl

end ArithLines.Descent
