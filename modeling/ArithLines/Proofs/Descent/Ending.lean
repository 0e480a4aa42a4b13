import ArithLines.Proofs.Descent.Line

/-! Where a parse leaves the descent. It is done with the line, or it halts at a token that the
machine cannot read and what is left of the line is drained. Nothing is read ahead then, so that all
tokens that are read have been consumed but the current one. -/

namespace ArithLines

namespace Findings

/-- The findings without the flags that only the descent raises. -/
def unflagged (findings : Findings) : Findings :=
  { findings with
    assignment := false
    complexTarget := false
    awaitsOperand := false
    nestedTooDeep := false
    unbalanced := false
    trailing := false }

/-- The findings where the descent halts and the parse fails. -/
def failWith (findings : Findings) (complaint : Option Complaint) (span : Span) : Findings :=
  (complaint.elim findings findings.complain).failAt span

theorem unflagged_failWith (findings : Findings) (complaint : Option Complaint) (span : Span) :
    (findings.failWith complaint span).unflagged = findings.unflagged.failAt span := by
  cases complaint with
  | none => rfl
  | some complaint => cases complaint <;> rfl

/-- To fail there once more changes nothing. -/
theorem failWith_failWith (findings : Findings) (complaint : Option Complaint) (span : Span) :
    (findings.failWith complaint span).failWith complaint span =
      findings.failWith complaint span := by
  cases complaint with
  | none => simp [failWith, failAt]
  | some complaint => cases complaint <;> simp [failWith, failAt, complain]

theorem recorded_of_unflagged {findings other : Findings}
    (h : findings.unflagged = other.unflagged) :
    findings.unrecognized = other.unrecognized ∧
      findings.unrecognizedText = other.unrecognizedText := by
  have hflag := congrArg unrecognized h
  have htext := congrArg unrecognizedText h
  exact ⟨hflag, htext⟩

end Findings

namespace Reading

theorem drain_rest (reading : Reading) : reading.drain.cursor.rest = [] := by
  fun_induction drain reading with
  | case1 reading hkind =>
    have hend : reading.cursor.next.1.kind = .endOfLine := hkind
    rw [next_cursor, Cursor.next_of_endOfLine hend]
    exact Cursor.rest_of_endOfLine hend
  | case2 reading _ ih => exact ih

theorem drain_in {line : List Char} {reading : Reading} (h : reading.cursor.In line) :
    reading.drain.cursor.In line := by
  fun_induction drain reading with
  | case1 reading _ =>
    rw [next_cursor]
    exact h.next
  | case2 reading _ ih =>
    apply ih
    rw [next_cursor]
    exact h.next

end Reading

namespace Descent

namespace State

/-- The state after a parse that halts at the current token. -/
def failed (state : State) (complaint : Option Complaint) : State :=
  let marked := (state.halt complaint).amend (·.failAt state.current.span)
  { marked with reading := marked.reading.drain }

section Failed

variable (state : State) (complaint : Option Complaint)

@[simp] theorem failed_current : (state.failed complaint).current = state.current :=
  state.halt_current complaint

@[simp] theorem failed_depth : (state.failed complaint).depth = state.depth :=
  state.halt_depth complaint

@[simp] theorem failed_lookahead : (state.failed complaint).lookahead = state.lookahead :=
  state.halt_lookahead complaint

@[simp] theorem failed_rest : (state.failed complaint).reading.cursor.rest = [] :=
  Reading.drain_rest _

theorem failed_findings : (state.failed complaint).findings =
    state.eventual.failWith complaint state.current.span := by
  have hmarked := eventual_amend (Findings.commutes_failAt state.current.span)
    (state.halt complaint)
  rw [eventual_halt] at hmarked
  exact (Reading.drain_findings _).trans hmarked

end Failed

theorem expressionStart_of_not_name {state : State} (h : state.current.kind ≠ .identifier) :
    state.expressionStart = state :=
  if_neg h

/-- A token is read ahead only after a name. -/
theorem expressionStart_lookahead {state : State} (h : state.lookahead = none) :
    state.expressionStart.lookahead = none ∨
      state.expressionStart.current.kind = .identifier := by
  rw [expressionStart]
  split
  · next hname =>
    split
    · exact .inl (advance_lookahead _)
    · exact .inr (by rwa [peek_current])
  · exact .inl h

theorem expressionStart_unflagged (state : State) :
    state.expressionStart.eventual.unflagged = state.eventual.unflagged := by
  rw [expressionStart]
  split
  · split
    · rw [eventual_advance, eventual_advance, eventual_amend Findings.commutes_assignment,
        eventual_peek]
      rfl
    · rw [eventual_peek]
  · rfl

/-- No operand can begin at the current token. -/
def Blocked (state : State) : Prop :=
  (state.machine .operand).step state.depth state.current.kind = none

theorem blocked_of_floor {floor : Nat} {state : State}
    (h : (state.machine .operand).step floor state.current.kind = none) : state.Blocked := by
  rw [Blocked, machine] at *
  generalize state.current.kind = kind at *
  cases kind <;> exact h

theorem Blocked.congr {state other : State} (h : state.Blocked)
    (hkind : other.current.kind = state.current.kind) (hdepth : other.depth = state.depth) :
    other.Blocked := by
  rw [Blocked, machine] at *
  rw [hkind, hdepth]
  generalize state.current.kind = kind at h
  cases kind <;> exact h

theorem blocked_of_endOfLine {state : State} (h : state.current.kind = .endOfLine) :
    state.Blocked := by
  rw [Blocked, h]
  exact Machine.step_endOfLine ..

theorem Blocked.not_name {state : State} (h : state.Blocked) :
    state.current.kind ≠ .identifier := by
  intro hname
  rw [Blocked, hname] at h
  simp [machine, Machine.step] at h

theorem Faces.exists_expressionStart {line : List Char} {rest : List Token} {state : State}
    (h : state.Faces line rest) :
    ∃ body, body <:+ rest ∧ state.expressionStart.Faces line body := by
  rw [State.expressionStart]
  split
  · split
    · exact ⟨rest.tail.tail, (List.tail_suffix _).trans (List.tail_suffix _),
        (h.peek.amend _).advance.advance⟩
    · exact ⟨rest, List.suffix_rfl, h.peek⟩
  · exact ⟨rest, List.suffix_rfl, h⟩

end State

/-- How a parse that begins in `state` ends. -/
inductive ParseEnded (state : State) : Except Span Statement × State → Prop
  | parsed {parsed : Statement} {read : List Token} {last : State} :
      Path state.depth .operand state.expressionStart read .operator last →
      last.depth = state.depth → last.current.kind = .endOfLine → last.lookahead = none →
      ParseEnded state (.ok parsed, last)
  | failed {mode : Mode} {read : List Token} {place : State} :
      Path state.depth .operand state.expressionStart read mode place →
      (place.machine mode).step state.depth place.current.kind = none →
      ¬(mode = .operator ∧ place.depth = state.depth ∧ place.current.kind = .endOfLine) →
      place.lookahead = none →
      ParseEnded state
        (.error place.current.span, place.failed (place.lineComplaint state.depth mode))

/-- Before the descent halts the token that was read ahead is consumed. -/
theorem Path.place_lookahead {floor : Nat} {mode : Mode} {start place : State} {read : List Token}
    (hstart : start.lookahead = none ∨ start.current.kind = .identifier)
    (hpath : Path floor .operand start read mode place)
    (hplace : mode = .operator ∨ (place.machine mode).step floor place.current.kind = none) :
    place.lookahead = none := by
  by_cases hread : read = []
  · subst hread
    cases hpath with
    | nil =>
      have hblocked := hplace.resolve_left Mode.noConfusion
      refine hstart.resolve_right fun hname => ?_
      rw [hname] at hblocked
      simp [State.machine, Machine.step] at hblocked
  · exact hpath.lookahead hread

theorem ended_parse (state : State) (h : state.lookahead = none) :
    ParseEnded state (parse state) := by
  have hstart := State.expressionStart_lookahead h
  have hended := ended_wholeLine state
  have hdepth := state.expressionStart_depth
  rw [parse]
  split
  · next parsed next hwhole =>
    rw [hwhole] at hended
    obtain ⟨read, hpath, hlast, hend⟩ := hended
    rw [hdepth] at hpath hlast
    exact .parsed hpath hlast hend (hpath.place_lookahead hstart (.inl rfl))
  · next blame last hwhole =>
    rw [hwhole] at hended
    obtain ⟨read, mode, place, hpath, hhalts⟩ := hended
    rw [hdepth] at hpath hhalts
    obtain ⟨hblocked, hunfinished, rfl, rfl⟩ := hhalts
    exact .failed hpath hblocked hunfinished (hpath.place_lookahead hstart (.inr hblocked))

/-- But for the flags, a parse changes what will be found in the line only by its failure. -/
theorem parse_unflagged {state : State} (h : state.lookahead = none) :
    (∀ parsed, (parse state).1 = .ok parsed →
      (parse state).2.eventual.unflagged = state.eventual.unflagged) ∧
    ∀ blame, (parse state).1 = .error blame →
      (parse state).2.findings.unflagged = state.eventual.unflagged.failAt blame := by
  have hended := ended_parse state h
  generalize parse state = outcome at hended
  have along {mode : Mode} {read : List Token} {last : State}
      (hpath : Path state.depth .operand state.expressionStart read mode last) :
      last.eventual.unflagged = state.eventual.unflagged := by
    rw [hpath.eventual, ← State.expressionStart_unflagged]
    rfl
  cases hended with
  | parsed hpath => exact ⟨fun _ _ => along hpath, by simp⟩
  | failed hpath =>
    refine ⟨by simp, fun blame hblame => ?_⟩
    rw [State.failed_findings, Findings.unflagged_failWith, along hpath, Except.error.inj hblame]

/-- A parse that begins where no operand can begin fails there. -/
theorem parse_of_blocked {state : State} (hlook : state.lookahead = none) (h : state.Blocked) :
    parse state = (.error state.current.span, state.failed (state.complaint .operand)) := by
  have hended := ended_parse state hlook
  have hstart := State.expressionStart_of_not_name h.not_name
  generalize parse state = outcome at hended
  cases hended with
  | parsed hpath =>
    rw [hstart] at hpath
    cases hpath with
    | cons hstep => exact absurd (h.symm.trans hstep) (Option.some_ne_none _).symm
  | failed hpath =>
    rw [hstart] at hpath
    cases hpath with
    | nil => rfl
    | cons hstep => exact absurd (h.symm.trans hstep) (Option.some_ne_none _).symm

end Descent

end ArithLines
