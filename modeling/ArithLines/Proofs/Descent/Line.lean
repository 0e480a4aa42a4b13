import ArithLines.Proofs.Descent.Path

/-! The descent on a whole line, from the form of the statement to the end. -/

namespace ArithLines.Descent

variable {α β : Type}

/-- What becomes of an expression that begins in `state`: it ends where its groups are as they were
and no operator follows, or the descent halts in it. -/
def Ended (state : State) : Except Span α × State → Prop
  | (.ok _, next) =>
    ∃ read, Path state.depth .operand state read .operator next ∧ next.depth = state.depth ∧
      EndsChain .sum next.current.kind
  | (.error blame, last) =>
    ∃ read mode place, Path state.depth .operand state read mode place ∧
      Halts state.depth mode place blame last

theorem Ended.map {state last : State} {result : Except Span α} (h : Ended state (result, last))
    (f : α → β) : Ended state (result.map f, last) := by
  cases result <;> exact h

theorem ended_expression (state : State) : Ended state (expression state) := by
  have h := follows_chain .sum state
  rw [expression]
  cases houtcome : chain .sum state with
  | parsed value next nearer =>
    rw [houtcome] at h
    exact h
  | stopped blame last =>
    rw [houtcome] at h
    exact h

namespace State

/-- The state in which the expression of a statement begins: past a target and its `=`, if there
are any. -/
def expressionStart (state : State) : State :=
  if state.current.kind = .identifier then
    if state.peek.lookahead.any (·.kind = .equal) then
      (state.peek.amend fun findings => { findings with assignment := true }).advance.advance
    else state.peek
  else state

@[simp] theorem peek_depth (state : State) : state.peek.depth = state.depth := by
  rw [peek]
  split <;> rfl

@[simp] theorem expressionStart_depth (state : State) :
    state.expressionStart.depth = state.depth := by
  rw [expressionStart]
  split
  · split <;> simp [amend]
  · rfl

/-- What the descent complains of when it halts, be it at the end of the statement. -/
def lineComplaint (state : State) (floor : Nat) (mode : Mode) : Option Complaint :=
  if mode = .operator ∧ state.depth = floor then state.missingEnd else state.complaint mode

end State

/-- A statement is made from the one expression in it. -/
theorem exists_statement_eq (state : State) :
    ∃ finish, statement state =
      ((expression state.expressionStart).1.map finish, (expression state.expressionStart).2) := by
  rw [statement, State.expressionStart]
  split
  · simp only
    split
    · exact ⟨_, rfl⟩
    · exact ⟨_, rfl⟩
  · exact ⟨_, rfl⟩

theorem ended_statement (state : State) : Ended state.expressionStart (statement state) := by
  obtain ⟨finish, hstatement⟩ := exists_statement_eq state
  rw [hstatement]
  exact (ended_expression _).map finish

/-- The descent halts at `place` within a line: the machine cannot read the token there, and it is
not the end of the line after a whole statement. -/
structure LineHalts (floor : Nat) (mode : Mode) (place : State) (blame : Span) (last : State) :
    Prop where
  blocked : (place.machine mode).step floor place.current.kind = none
  unfinished : ¬(mode = .operator ∧ place.depth = floor ∧ place.current.kind = .endOfLine)
  blame : blame = place.current.span
  last : last = place.halt (place.lineComplaint floor mode)

theorem Halts.line {floor : Nat} {mode : Mode} {place last : State} {blame : Span}
    (h : Halts floor mode place blame last) : LineHalts floor mode place blame last := by
  have hinside : ¬(mode = .operator ∧ place.depth = floor) := by
    rintro ⟨hmode, hdepth⟩
    have := h.inside hmode
    omega
  refine ⟨h.blocked, fun hend => hinside ⟨hend.1, hend.2.1⟩, h.blame, ?_⟩
  rw [State.lineComplaint, if_neg hinside]
  exact h.last

/-- What becomes of a line whose expression begins in `state`. -/
def LineEnded (state : State) : Except Span α × State → Prop
  | (.ok _, next) =>
    ∃ read, Path state.depth .operand state read .operator next ∧ next.depth = state.depth ∧
      next.current.kind = .endOfLine
  | (.error blame, last) =>
    ∃ read mode place, Path state.depth .operand state read mode place ∧
      LineHalts state.depth mode place blame last

theorem step_of_endsChain {mode : Mode} {state : State} (hmode : mode = .operator)
    (h : EndsChain .sum state.current.kind) :
    (state.machine mode).step state.depth state.current.kind = none := by
  subst hmode
  have hoperator := h.not_isOperator
  rw [State.machine]
  generalize state.current.kind = kind at hoperator
  cases kind <;> first | rfl | exact if_neg (Nat.lt_irrefl _) | exact absurd hoperator (by decide)

theorem ended_wholeLine (state : State) : LineEnded state.expressionStart (wholeLine state) := by
  have h := ended_statement state
  rw [wholeLine]
  split
  · next blame last hstatement =>
    rw [hstatement] at h
    obtain ⟨read, mode, place, hpath, hhalts⟩ := h
    exact ⟨read, mode, place, hpath, hhalts.line⟩
  · next parsed next hstatement =>
    rw [hstatement] at h
    obtain ⟨read, hpath, hdepth, hends⟩ := h
    split
    · next hend => exact ⟨read, hpath, hdepth, hend⟩
    · next hend =>
      refine ⟨read, .operator, next, hpath, ?_, fun h => hend h.2.2, rfl, ?_⟩
      · rw [← hdepth]
        exact step_of_endsChain rfl hends
      · rw [State.lineComplaint, if_pos ⟨rfl, hdepth⟩]

theorem parse_eq_ok_iff {state last : State} {parsed : Statement} :
    parse state = (.ok parsed, last) ↔
      statement state = (.ok parsed, last) ∧ last.current.kind = .endOfLine := by
  rw [parse, wholeLine]
  cases hstatement : statement state with
  | mk result next =>
    cases result with
    | error blame => simp
    | ok value =>
      by_cases hend : next.current.kind = .endOfLine
      · simp only [hend, if_true, Prod.mk.injEq, Except.ok.injEq]
        constructor
        · rintro ⟨rfl, rfl⟩
          exact ⟨⟨rfl, rfl⟩, hend⟩
        · exact And.left
      · simp only [hend, if_false, Prod.mk.injEq, reduceCtorEq, false_and, false_iff]
        rintro ⟨⟨-, rfl⟩, hlast⟩
        exact hend hlast

end ArithLines.Descent
