import ArithLines.Descent

/-! What each part of the descent comes to, by the kind of the current token and by what the parts
that it calls come to. -/

namespace ArithLines.Descent

namespace State

@[simp] theorem peek_current (state : State) : state.peek.current = state.current := by
  rw [peek]
  split <;> rfl

theorem advance_current_of_lookahead {state : State} {token : Token}
    (h : state.lookahead = some token) : state.advance.current = token := by
  rw [advance, shift, h]
  rfl

end State

section Parts

variable {level : Precedence} {right body : Expr} {bound : Nat} {state next last : State}
  {operator : Operator} {blame : Span}

theorem extend_ends (left : Expr) (nearer : state.size < bound)
    (h : level.operator? state.current.kind = none) :
    extend level left state nearer = .parsed left state nearer := by
  rw [extend]
  split
  · rfl
  · next operator hop => simp [h] at hop

theorem extend_stops (left : Expr) (nearer : state.size < bound)
    (hoperator : level.operator? state.current.kind = some operator)
    (hright : operand level state.advance = .stopped blame last) :
    extend level left state nearer = .stopped blame last := by
  rw [extend]
  split
  · next hnone => simp [hoperator] at hnone
  · rw [hright]

theorem extend_joins (left : Expr) (nearer : state.size < bound)
    (hoperator : level.operator? state.current.kind = some operator)
    {shorter : next.size < state.advance.size}
    (hright : operand level state.advance = .parsed right next shorter) :
    ∃ nearer', extend level left state nearer =
      extend level (left.join operator right) next nearer' := by
  have hadvance := state.size_advance_lt (Precedence.ne_endOfLine_of_operator? hoperator)
  refine ⟨Nat.lt_trans shorter (Nat.lt_trans hadvance nearer), ?_⟩
  rw [extend]
  split
  · next hnone => simp [hoperator] at hnone
  · next operator' hop =>
    obtain rfl : operator = operator' := Option.some.inj (hoperator.symm.trans hop)
    rw [hright]

theorem factor_of_word {tree : Expr}
    (h : state.current.kind = .number ∧ tree = .number state.current.lexeme state.current.span ∨
      state.current.kind = .identifier ∧ tree = .name state.current.lexeme state.current.span) :
    ∃ nearer, factor state = .parsed tree state.advance nearer := by
  have hend : state.current.kind ≠ .endOfLine := by
    rcases h with ⟨hkind, -⟩ | ⟨hkind, -⟩ <;> simp [hkind]
  refine ⟨state.size_advance_lt hend, ?_⟩
  rw [factor]
  rcases h with ⟨hkind, rfl⟩ | ⟨hkind, rfl⟩
  · split <;> simp_all
  · split <;> simp_all

theorem factor_of_opening (isOpen : state.current.kind = .leftParen) :
    factor state = group state isOpen := by
  rw [factor]
  split
  · next hkind => simp [isOpen] at hkind
  · next hkind => simp [isOpen] at hkind
  · rfl
  · next hother => exact absurd isOpen hother

theorem factor_stops (hnumber : state.current.kind ≠ .number)
    (hname : state.current.kind ≠ .identifier) (hopen : state.current.kind ≠ .leftParen) :
    factor state = state.stop state.missingOperand := by
  rw [factor]
  split
  · contradiction
  · contradiction
  · contradiction
  · rfl

section Group

variable (isOpen : state.current.kind = .leftParen)

theorem group_too_deep (h : depthLimit ≤ state.depth) :
    group state isOpen = state.stop (some (.tooDeep depthLimit)) := by
  rw [group, if_pos h]

variable (hroom : ¬depthLimit ≤ state.depth)

include hroom

theorem group_stops (hbody : chain .sum state.advance.opened = .stopped blame last) :
    group state isOpen = .stopped blame last := by
  rw [group, if_neg hroom, hbody]

variable {shorter : next.size < state.advance.opened.size}
  (hbody : chain .sum state.advance.opened = .parsed body next shorter)

include hbody

theorem group_closes (hclose : next.current.kind = .rightParen) :
    ∃ nearer, group state isOpen = .parsed
      (.group body (state.current.span.through next.current.span)) next.advance.closed nearer := by
  have hadvance := state.size_advance_lt (by simp [isOpen])
  have hlast := next.size_advance_lt (by simp [hclose])
  refine ⟨Nat.lt_trans hlast (Nat.lt_trans shorter hadvance), ?_⟩
  rw [group, if_neg hroom, hbody]
  exact dif_pos hclose

theorem group_unclosed (hclose : next.current.kind ≠ .rightParen) :
    group state isOpen = next.stop next.missingClose := by
  rw [group, if_neg hroom, hbody]
  exact dif_neg hclose

end Group

end Parts

end ArithLines.Descent
