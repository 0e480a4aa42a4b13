import ArithLines.Proofs.Descent.Equations

/-! The descent from two related states. Where it goes it decides by the tokens and the depth alone.
So a relation of states which agree in these, and which every step of it keeps, holds of the states in
which it ends as well, and both come to the same result. -/

namespace ArithLines.Descent

/-- The descent cannot tell related states apart, and each of its steps leads to related states. -/
structure Simulation (Related : State → State → Prop) : Prop where
  current {state other : State} : Related state other → other.current = state.current
  lookahead {state other : State} : Related state other → other.lookahead = state.lookahead
  depth {state other : State} : Related state other → other.depth = state.depth
  peek {state other : State} : Related state other → Related state.peek other.peek
  advance {state other : State} : Related state other → state.current.kind ≠ .endOfLine →
    Related state.advance other.advance
  opened {state other : State} : Related state other → Related state.opened other.opened
  closed {state other : State} : Related state other → Related state.closed other.closed
  halt {state other : State} (complaint : Option Complaint) : Related state other →
    Related (state.halt complaint) (other.halt complaint)
  assignment {state other : State} : Related state other →
    Related (state.amend fun findings => { findings with assignment := true })
      (other.amend fun findings => { findings with assignment := true })

/-- The same outcome, but for states that are related. -/
inductive Agree (Related : State → State → Prop) {α : Type} {bound bound' : Nat} :
    Outcome bound α → Outcome bound' α → Prop
  | parsed {value : α} {next other : State} {nearer : next.size < bound}
      {nearer' : other.size < bound'} :
      Related next other → Agree Related (.parsed value next nearer) (.parsed value other nearer')
  | stopped {blame : Span} {last other : State} :
      Related last other → Agree Related (.stopped blame last) (.stopped blame other)

/-- The same result, but with states that are related. -/
def Same (Related : State → State → Prop) {α : Type}
    (first second : Except Span α × State) : Prop :=
  second.1 = first.1 ∧ Related first.2 second.2

section Outcomes

variable {Related : State → State → Prop} {α β : Type} {bound bound' : Nat}
  {first : Outcome bound α} {second : Outcome bound' α}

theorem Agree.of_parsed {value : α} {next : State} {nearer : next.size < bound}
    (h : Agree Related (.parsed value next nearer) second) :
    ∃ other nearer', second = .parsed value other nearer' ∧ Related next other := by
  cases h with
  | parsed hnext => exact ⟨_, _, rfl, hnext⟩

theorem Agree.of_stopped {blame : Span} {last : State}
    (h : Agree Related (.stopped blame last : Outcome bound α) second) :
    ∃ other, second = .stopped blame other ∧ Related last other := by
  cases h with
  | stopped hlast => exact ⟨_, rfl, hlast⟩

theorem Agree.result (h : Agree Related first second) : Same Related first.result second.result := by
  cases h with
  | parsed hnext => exact ⟨rfl, hnext⟩
  | stopped hlast => exact ⟨rfl, hlast⟩

theorem Same.map {first second : Except Span α × State} (h : Same Related first second)
    (f : α → β) : Same Related (first.1.map f, first.2) (second.1.map f, second.2) :=
  ⟨congrArg (Except.map f) h.1, h.2⟩

end Outcomes

namespace Simulation

variable {Related : State → State → Prop} {state other : State} (h : Simulation Related)

include h

theorem stop {α : Type} {bound bound' : Nat} (hrelated : Related state other)
    (complaint : Option Complaint) :
    Agree Related (state.stop complaint : Outcome bound α)
      (other.stop complaint : Outcome bound' α) := by
  rw [State.stop, State.stop, h.current hrelated]
  exact .stopped (h.halt complaint hrelated)

theorem missingOperand (hrelated : Related state other) :
    other.missingOperand = state.missingOperand := by
  rw [State.missingOperand, h.current hrelated, h.depth hrelated]
  rfl

theorem missingClose (hrelated : Related state other) :
    other.missingClose = state.missingClose := by
  rw [State.missingClose, h.current hrelated]
  rfl

theorem missingEnd (hrelated : Related state other) : other.missingEnd = state.missingEnd := by
  rw [State.missingEnd, h.current hrelated]
  rfl

theorem word {tree : Expr} (hrelated : Related state other)
    (hword : state.current.kind = .number ∧ tree = .number state.current.lexeme state.current.span ∨
      state.current.kind = .identifier ∧ tree = .name state.current.lexeme state.current.span) :
    Agree Related (factor state) (factor other) := by
  have hend : state.current.kind ≠ .endOfLine := by
    rcases hword with ⟨hkind, -⟩ | ⟨hkind, -⟩ <;> simp [hkind]
  obtain ⟨nearer, hfactor⟩ := factor_of_word hword
  rw [← h.current hrelated] at hword
  obtain ⟨nearer', hfactor'⟩ := factor_of_word hword
  rw [hfactor, hfactor']
  exact .parsed (h.advance hrelated hend)

theorem chain (level : Precedence) (hrelated : Related state other) :
    Agree Related (chain level state) (chain level other) := by
  refine (chain.mutual_induct
    (fun level state => ∀ other, Related state other →
      Agree Related (Descent.chain level state) (Descent.chain level other))
    (fun level left _ state nearer => ∀ bound' other (nearer' : other.size < bound'),
      Related state other →
        Agree Related (extend level left state nearer) (extend level left other nearer'))
    (fun level state => ∀ other, Related state other →
      Agree Related (operand level state) (operand level other))
    (fun state => ∀ other, Related state other → Agree Related (factor state) (factor other))
    (fun state isOpen => ∀ other isOpen', Related state other →
      Agree Related (group state isOpen) (group other isOpen'))
    ?first_stops ?first ?no_operator ?right_stops ?right ?sum ?product ?number ?name ?paren
    ?no_factor ?too_deep ?body_stops ?closes ?unclosed).1 level state other hrelated
  case first_stops =>
    intro level state blame last hfirst ih other hrelated
    obtain ⟨_, hother, hlast⟩ := (hfirst ▸ ih other hrelated).of_stopped
    rw [Descent.chain, Descent.chain, hfirst, hother]
    exact .stopped hlast
  case first =>
    intro level state first next nearer hfirst ih ihextend other hrelated
    obtain ⟨_, _, hother, hnext⟩ := (hfirst ▸ ih other hrelated).of_parsed
    rw [Descent.chain, Descent.chain, hfirst, hother]
    exact ihextend _ _ _ hnext
  case no_operator =>
    intro level left bound state nearer hnone bound' other nearer' hrelated
    rw [extend_ends left nearer hnone, extend_ends left nearer' (by rw [h.current hrelated, hnone])]
    exact .parsed hrelated
  case right_stops =>
    intro level left bound state nearer operator hoperator blame last hright ih bound' other
      nearer' hrelated
    have hadvance := h.advance hrelated (Precedence.ne_endOfLine_of_operator? hoperator)
    obtain ⟨_, hother, hlast⟩ := (hright ▸ ih other.advance hadvance).of_stopped
    rw [extend_stops left nearer hoperator hright]
    rw [← h.current hrelated] at hoperator
    rw [extend_stops left nearer' hoperator hother]
    exact .stopped hlast
  case right =>
    intro level left bound state nearer operator hoperator right next shorter hright ih ihextend
      bound' other nearer' hrelated
    have hadvance := h.advance hrelated (Precedence.ne_endOfLine_of_operator? hoperator)
    obtain ⟨_, _, hother, hnext⟩ := (hright ▸ ih other.advance hadvance).of_parsed
    obtain ⟨_, hextend⟩ := extend_joins left nearer hoperator hright
    rw [← h.current hrelated] at hoperator
    obtain ⟨_, hextend'⟩ := extend_joins left nearer' hoperator hother
    rw [hextend, hextend']
    exact ihextend _ _ _ hnext
  case sum =>
    intro state ih other hrelated
    rw [operand, operand]
    exact ih other hrelated
  case product =>
    intro state ih other hrelated
    rw [operand, operand]
    exact ih other hrelated
  case number =>
    intro state hkind other hrelated
    exact h.word hrelated (.inl ⟨hkind, rfl⟩)
  case name =>
    intro state hkind other hrelated
    exact h.word hrelated (.inr ⟨hkind, rfl⟩)
  case paren =>
    intro state hkind ih other hrelated
    have hother : other.current.kind = .leftParen := by rw [h.current hrelated, hkind]
    rw [factor_of_opening hkind, factor_of_opening hother]
    exact ih other hother hrelated
  case no_factor =>
    intro state hnumber hname hopen other hrelated
    have hcurrent := h.current hrelated
    rw [factor_stops hnumber hname hopen, factor_stops (hcurrent ▸ hnumber) (hcurrent ▸ hname)
      (hcurrent ▸ hopen), h.missingOperand hrelated]
    exact h.stop hrelated _
  case too_deep =>
    intro state isOpen hdeep other isOpen' hrelated
    rw [group_too_deep isOpen hdeep, group_too_deep isOpen' (by rwa [h.depth hrelated])]
    exact h.stop hrelated _
  case body_stops =>
    intro state isOpen hroom blame last hbody ih other isOpen' hrelated
    have hinner := h.opened (h.advance hrelated (by simp [isOpen]))
    obtain ⟨_, hother, hlast⟩ := (hbody ▸ ih _ hinner).of_stopped
    rw [group_stops isOpen hroom hbody, group_stops isOpen' (by rwa [h.depth hrelated]) hother]
    exact .stopped hlast
  case closes =>
    intro state isOpen hroom body next shorter hbody hclose ih other isOpen' hrelated
    have hinner := h.opened (h.advance hrelated (by simp [isOpen]))
    obtain ⟨next', _, hother, hnext⟩ := (hbody ▸ ih _ hinner).of_parsed
    have hclose' : next'.current.kind = .rightParen := by rw [h.current hnext, hclose]
    obtain ⟨_, hgroup⟩ := group_closes isOpen hroom hbody hclose
    obtain ⟨_, hgroup'⟩ := group_closes isOpen' (by rwa [h.depth hrelated]) hother hclose'
    rw [hgroup, hgroup', h.current hrelated, h.current hnext]
    exact .parsed (h.closed (h.advance hnext (by simp [hclose])))
  case unclosed =>
    intro state isOpen hroom body next shorter hbody hclose ih other isOpen' hrelated
    have hinner := h.opened (h.advance hrelated (by simp [isOpen]))
    obtain ⟨next', _, hother, hnext⟩ := (hbody ▸ ih _ hinner).of_parsed
    have hclose' : next'.current.kind ≠ .rightParen := by rwa [h.current hnext]
    rw [group_unclosed isOpen hroom hbody hclose,
      group_unclosed isOpen' (by rwa [h.depth hrelated]) hother hclose', h.missingClose hnext]
    exact h.stop hnext _

theorem expression (hrelated : Related state other) :
    Same Related (expression state) (expression other) :=
  (h.chain .sum hrelated).result

theorem assignmentStatement {sign : Token} (hrelated : Related state other)
    (hname : state.current.kind = .identifier) (hsome : state.lookahead = some sign)
    (hsign : sign.kind = .equal) :
    Same Related (Descent.assignment state) (Descent.assignment other) := by
  have htarget := h.advance (h.assignment hrelated)
    (show state.current.kind ≠ .endOfLine by simp [hname])
  have hcurrent : State.current (State.advance
      (state.amend fun findings => { findings with assignment := true })) = sign :=
    State.advance_current_of_lookahead hsome
  have hbody := h.advance htarget (by simp [hcurrent, hsign])
  rw [Descent.assignment, Descent.assignment, h.current hrelated]
  exact (h.expression hbody).map _

theorem statement (hrelated : Related state other) :
    Same Related (statement state) (statement other) := by
  have hpeek := h.peek hrelated
  rw [Descent.statement, Descent.statement, h.current hrelated]
  by_cases hname : state.current.kind = .identifier
  · rw [if_pos hname, if_pos hname]
    simp only [h.lookahead hpeek]
    by_cases hequals : state.peek.lookahead.any (·.kind = .equal) = true
    · rw [if_pos hequals, if_pos hequals]
      cases hlook : state.peek.lookahead with
      | none => simp [hlook] at hequals
      | some sign =>
        rw [hlook] at hequals
        have hsign : sign.kind = .equal := by simpa using hequals
        exact h.assignmentStatement hpeek (by rwa [State.peek_current]) hlook hsign
    · rw [if_neg hequals, if_neg hequals]
      exact (h.expression hpeek).map _
  · rw [if_neg hname, if_neg hname]
    exact (h.expression hrelated).map _

/-- Up to the end of the line, or to where the descent stops. -/
theorem wholeLine (hrelated : Related state other) :
    Same Related (wholeLine state) (wholeLine other) := by
  have hstatement := h.statement hrelated
  rw [Descent.wholeLine, Descent.wholeLine]
  generalize Descent.statement state = first, Descent.statement other = second at hstatement ⊢
  obtain ⟨result, next⟩ := first
  obtain ⟨result', next'⟩ := second
  obtain ⟨rfl, hnext⟩ : result' = result ∧ Related next next' := hstatement
  cases result' with
  | error blame => exact ⟨rfl, hnext⟩
  | ok parsed =>
    simp only [h.current hnext, h.missingEnd hnext]
    split
    · exact ⟨rfl, hnext⟩
    · exact ⟨rfl, h.halt _ hnext⟩

end Simulation

end ArithLines.Descent
