import ArithLines.Proofs.Descent.Line
import ArithLines.Proofs.Stuck

/-! The parse of a line by its tokens alone. The machine reads the tokens that the descent consumes;
where it cannot read on, or may not end, the parse fails. The findings are those of the machine
there, with the first unrecognized token of the line. -/

namespace ArithLines

open Machine

/-- The complaint at a token that the machine cannot read. -/
def Machine.complaint (machine : Machine) (token : Token) : Option Complaint :=
  match machine.mode with
  | .operand =>
    match token.kind with
    | .leftParen => some (.tooDeep Descent.depthLimit)
    | .rightParen => if machine.groups = 0 then some .unopened else none
    | .endOfLine => if 0 < machine.groups then some .endsInGroup else none
    | _ => none
  | .operator =>
    if machine.groups = 0 then
      match token.kind with
      | .equal => some .unassignable
      | .rightParen => some .unopened
      | .invalid => none
      | _ => some (.trailing token.lexeme)
    else
      match token.kind with
      | .endOfLine => some .unclosed
      | _ => none

/-- Of the tokens of the line the machine reads `read` and is stuck before `rest`. -/
structure Stalls (line : List Char) (read rest : List Token) (machine : Machine) : Prop where
  split : (Cursor.ofLine line).tokens = read ++ rest
  stuck : Stuck (read.map Token.kind) (rest.map Token.kind) machine

namespace Findings

/-- The findings of a line that begins like this when the machine is in this state. -/
def ofMachine (line : List Char) (machine : Machine) : Findings :=
  { assignment := beginsAssignment (kinds line), awaitsOperand := machine.awaits }

def ofHalt (line : List Char) (machine : Machine) (token : Token) : Findings :=
  let read := (ofMachine line machine).recordFirst (Cursor.ofLine line).tokens
  ((machine.complaint token).elim read read.complain).failAt token.span

end Findings

namespace Descent

/-- The state in which the parse of a line begins. -/
def State.ofLine (line : List Char) : State := .ofReading (.ofLine line {})

theorem faces_ofLine (line : List Char) :
    (State.ofLine line).Faces line (Cursor.ofLine line).tokens := by
  have hplace : (Reading.ofLine line {}).cursor.In line := Cursor.in_ofLine line
  exact State.faces_ofReading hplace

theorem eventual_ofLine (line : List Char) : (State.ofLine line).eventual =
    ({} : Findings).recordFirst (Cursor.ofLine line).tokens :=
  Reading.next_eventual _

theorem State.complaint_machine (state : State) (mode : Mode) :
    state.lineComplaint 0 mode = (state.machine mode).complaint state.current := by
  rw [State.lineComplaint, Machine.complaint, State.machine]
  cases mode with
  | operand =>
    rw [State.complaint, State.missingOperand]
    generalize state.current.kind = kind
    cases kind <;> rfl
  | operator =>
    simp only [true_and]
    rfl

namespace State.Faces

variable {line : List Char} {state : State}

theorem start_of_assignment {target equals : Token} {body : List Token}
    (h : state.Faces line (target :: equals :: body)) (htarget : target.kind = .identifier)
    (hequals : equals.kind = .equal) :
    state.expressionStart.Faces line body ∧ state.expressionStart.eventual =
      { state.eventual with assignment := true, awaitsOperand := true } := by
  have hcurrent : state.current = target := h.current
  have hlook : state.peek.lookahead = some equals := h.peek_lookahead
  have hmarked := (h.peek.amend fun findings => { findings with assignment := true }).advance
  rw [expressionStart]
  rw [if_pos (by rw [hcurrent, htarget]), if_pos (by rw [hlook]; simp [hequals])]
  refine ⟨hmarked.advance, ?_⟩
  rw [eventual_advance, eventual_advance, eventual_amend Findings.commutes_assignment,
    eventual_peek, hmarked.current]
  simp only [List.tail_cons, List.headD_cons, hequals]
  rfl

theorem statement_of_assignment {target equals : Token} {body : List Token}
    (h : state.Faces line (target :: equals :: body)) (htarget : target.kind = .identifier)
    (hequals : equals.kind = .equal) :
    statement state =
      ((expression state.expressionStart).1.map fun value =>
          .assignment target.lexeme value (target.span.through value.span),
        (expression state.expressionStart).2) := by
  have hcurrent : state.current = target := h.current
  have hpeeked : state.peek.current = target := h.peek.current
  have hlook : state.peek.lookahead = some equals := h.peek_lookahead
  have hname : state.current.kind = .identifier := by rw [hcurrent, htarget]
  have hequal : state.peek.lookahead.any (·.kind = .equal) = true := by rw [hlook]; simp [hequals]
  rw [statement, if_pos hname]
  simp only [if_pos hequal]
  rw [assignment, expressionStart, if_pos hname, if_pos hequal, hpeeked]

/-- Where the line does not have the form of an assignment, no `=` is read ahead. -/
theorem no_equal_ahead {rest : List Token} (h : state.Faces line rest)
    (hform : beginsAssignment (rest.map Token.kind) = false)
    (hname : state.current.kind = .identifier) :
    ¬state.peek.lookahead.any (·.kind = .equal) = true := by
  rw [h.peek_lookahead]
  rw [h.current] at hname
  match rest, hname, hform with
  | [token], _, _ => simp [Token.endOfLine]
  | token :: second :: _, hname, hform =>
    intro hequals
    have hsecond : second.kind = .equal := by simpa using hequals
    have hfirst : token.kind = .identifier := hname
    simp [beginsAssignment, hfirst, hsecond] at hform

theorem start_of_expression {rest : List Token} (h : state.Faces line rest)
    (hform : beginsAssignment (rest.map Token.kind) = false) :
    state.expressionStart.Faces line rest ∧ state.expressionStart.eventual = state.eventual := by
  unfold expressionStart
  split
  · next hname =>
    rw [if_neg (h.no_equal_ahead hform hname)]
    exact ⟨h.peek, eventual_peek _⟩
  · exact ⟨h, rfl⟩

theorem statement_of_expression {rest : List Token} (h : state.Faces line rest)
    (hform : beginsAssignment (rest.map Token.kind) = false) :
    statement state =
      ((expression state.expressionStart).1.map Statement.ofExpr,
        (expression state.expressionStart).2) := by
  unfold expressionStart statement
  split
  · next hname =>
    simp only [if_neg (h.no_equal_ahead hform hname)]
    rfl
  · rfl

end State.Faces

/-- The expression of a line begins in the state `start`, after the tokens `lead` and before the
tokens `body`; there the machine for the line starts as well. -/
structure Starts (line : List Char) (lead body : List Token) (start : State) : Prop where
  tokens : (Cursor.ofLine line).tokens = lead ++ body
  faces : start.Faces line body
  depth : start.depth = 0
  eventual : start.eventual =
    (Findings.ofMachine line (start.machine .operand)).recordFirst (Cursor.ofLine line).tokens
  reach : ∀ before after, body = before ++ after →
    Machine.reach ((lead ++ before).map Token.kind) =
      (start.machine .operand).run 0 (before.map Token.kind)

theorem starts_of_assignment {line : List Char} {target equals : Token} {body : List Token}
    (h : (Cursor.ofLine line).tokens = target :: equals :: body)
    (htarget : target.kind = .identifier) (hequals : equals.kind = .equal) :
    Starts line [target, equals] body (State.ofLine line).expressionStart := by
  have hfaces := faces_ofLine line
  rw [h] at hfaces
  obtain ⟨hstart, heventual⟩ := hfaces.start_of_assignment htarget hequals
  have hmachine : (State.ofLine line).expressionStart.machine .operand = .start true := by
    rw [State.machine]
    rw [← State.eventual_awaitsOperand, heventual, State.expressionStart_depth]
    rfl
  refine ⟨h, hstart, State.expressionStart_depth _, ?_, fun before after _ => ?_⟩
  · have hform : beginsAssignment (kinds line) = true := by
      simp [kinds, h, htarget, hequals, beginsAssignment]
    have hassignment := Findings.commutes_assignment.recordFirst {} (Cursor.ofLine line).tokens
    have hawaits := (Findings.commutes_awaitsOperand true).recordFirst { assignment := true }
      (Cursor.ofLine line).tokens
    rw [heventual, eventual_ofLine, hmachine, Findings.ofMachine, hform]
    exact (hawaits.trans (by rw [hassignment])).symm
  · rw [hmachine]
    simp [htarget, hequals]

theorem starts_of_expression {line : List Char} (hform : beginsAssignment (kinds line) = false) :
    Starts line [] (Cursor.ofLine line).tokens (State.ofLine line).expressionStart := by
  obtain ⟨hstart, heventual⟩ := (faces_ofLine line).start_of_expression hform
  have hmachine : (State.ofLine line).expressionStart.machine .operand = .start false := by
    rw [State.machine]
    rw [← State.eventual_awaitsOperand, heventual, eventual_ofLine, State.expressionStart_depth,
      Findings.recordFirst_awaitsOperand]
    rfl
  refine ⟨rfl, hstart, State.expressionStart_depth _, ?_, fun before after hsplit => ?_⟩
  · rw [heventual, eventual_ofLine, hmachine, Findings.ofMachine, hform]
    rfl
  · rw [hmachine, List.nil_append]
    refine reach_of_not_assignment fun rest hrest => ?_
    simp [kinds, hsplit, hrest, beginsAssignment] at hform

theorem exists_starts (line : List Char) :
    ∃ lead body, Starts line lead body (State.ofLine line).expressionStart := by
  cases hform : beginsAssignment (kinds line) with
  | false => exact ⟨_, _, starts_of_expression hform⟩
  | true =>
    obtain ⟨target, equals, body, htokens, htarget, hequals⟩ := exists_of_beginsAssignment hform
    exact ⟨_, _, starts_of_assignment htokens htarget hequals⟩

/-- From its start on, the descent is where the machine is. -/
theorem Starts.path {line : List Char} {lead body read : List Token} {start last : State}
    {mode : Mode} (h : Starts line lead body start) (hpath : Path 0 .operand start read mode last) :
    ∃ rest, (Cursor.ofLine line).tokens = lead ++ read ++ rest ∧ last.Faces line rest ∧
      Machine.reach ((lead ++ read).map Token.kind) = some (last.machine mode) ∧
      (∀ token more, rest = token :: more →
        Machine.reach ((lead ++ read).map Token.kind ++ [token.kind]) =
          (last.machine mode).step 0 token.kind) ∧
      last.eventual =
        (Findings.ofMachine line (last.machine mode)).recordFirst (Cursor.ofLine line).tokens := by
  obtain ⟨rest, hbody, hlast⟩ := hpath.faces h.faces
  refine ⟨rest, ?_, hlast, ?_, ?_, ?_⟩
  · rw [h.tokens, hbody, List.append_assoc]
  · rw [h.reach read rest hbody, hpath.run]
  · rintro token more rfl
    have hreach := h.reach (read ++ [token]) more (by simp [hbody])
    rw [← List.append_assoc, List.map_append, List.map_singleton] at hreach
    rw [hreach, List.map_append, run_append, hpath.run]
    simp
  · have hawaits := (Findings.commutes_awaitsOperand last.findings.awaitsOperand).recordFirst
      (Findings.ofMachine line (start.machine .operand)) (Cursor.ofLine line).tokens
    rw [hpath.eventual, h.eventual]
    exact hawaits.symm

/-- A line that parses is one at whose end the machine accepts. -/
theorem parse_ok {line : List Char} {parsed : Statement} {last : State}
    (h : parse (.ofLine line) = (.ok parsed, last)) :
    ∃ machine, Machine.reach (kinds line) = some machine ∧ machine.Accepts ∧
      last.findings = .ofMachine line machine := by
  have hended := ended_wholeLine (State.ofLine line)
  obtain ⟨lead, body, hstart⟩ := exists_starts line
  rw [parse] at h
  split at h
  · next parsed' last' hwhole =>
    obtain ⟨-, rfl⟩ := Prod.mk.injEq .. ▸ h
    rw [hwhole] at hended
    obtain ⟨read, hpath, hdepth, hend⟩ := hended
    rw [hstart.depth] at hpath hdepth
    obtain ⟨rest, htokens, hfaces, hreach, -, heventual⟩ := hstart.path hpath
    have hkinds : ∀ token ∈ rest, token.kind ≠ .endOfLine := by
      intro token htoken
      have hmem : token ∈ (Cursor.ofLine line).tokens := by simp [htokens, htoken]
      exact Cursor.kind_ne_endOfLine token hmem
    obtain rfl := hfaces.eq_nil hkinds hend
    rw [List.append_nil] at htokens
    rw [← htokens] at hreach
    refine ⟨_, hreach, ⟨rfl, hdepth⟩, ?_⟩
    have hnone : (Cursor.ofLine line).tokens.find? (·.kind = .invalid) = none := by
      rw [List.find?_eq_none]
      intro token htoken
      simpa using ne_invalid_of_reach hreach token.kind (List.mem_map_of_mem htoken)
    rw [State.eventual, Reading.eventual, hfaces.tokens_of_nil, Findings.recordFirst_nil,
      Findings.recordFirst, hnone] at heventual
    exact heventual
  · simp at h

/-- A line that does not parse is one in which the machine stalls, and the descent stays at the
token there, which is blamed. -/
theorem parse_error {line : List Char} {blame : Span} {last : State}
    (h : parse (.ofLine line) = (.error blame, last)) :
    ∃ read rest machine, Stalls line read rest machine ∧
      last.current = rest.headD (.endOfLine line.length) ∧
      blame = (rest.headD (.endOfLine line.length)).span ∧
      last.findings = .ofHalt line machine (rest.headD (.endOfLine line.length)) := by
  have hended := ended_wholeLine (State.ofLine line)
  obtain ⟨lead, body, hstart⟩ := exists_starts line
  rw [parse] at h
  split at h
  · simp at h
  · next blame' last' hwhole =>
    simp only [Prod.mk.injEq, Except.error.injEq] at h
    obtain ⟨rfl, rfl⟩ := h
    rw [hwhole] at hended
    obtain ⟨read, mode, place, hpath, hhalts⟩ := hended
    rw [hstart.depth] at hpath hhalts
    obtain ⟨rest, htokens, hfaces, hreach, hblocked, heventual⟩ := hstart.path hpath
    have hcurrent := hfaces.current
    refine ⟨lead ++ read, rest, place.machine mode, ⟨htokens, hreach, ?_, ?_⟩, ?_, ?_, ?_⟩
    · intro kind more hkinds
      obtain ⟨token, tokens, rfl, rfl, -⟩ := List.map_eq_cons_iff.mp hkinds
      have hstep := hhalts.blocked
      rw [hcurrent] at hstep
      rw [hblocked token tokens rfl]
      exact hstep
    · rintro hkinds ⟨hmode, hgroups⟩
      obtain rfl := List.map_eq_nil_iff.mp hkinds
      exact hhalts.unfinished ⟨hmode, hgroups, by rw [hcurrent]; rfl⟩
    · rw [← hcurrent, hhalts.last]
      exact State.halt_current ..
    · rw [hhalts.blame, hcurrent]
    · have hdrain : (last'.amend (·.failAt blame')).eventual = last'.eventual.failAt blame' :=
        State.eventual_amend (Findings.commutes_failAt _) _
      show ((last'.amend (·.failAt blame')).reading.drain).findings = _
      rw [Reading.drain_findings]
      refine hdrain.trans ?_
      rw [hhalts.last, State.eventual_halt, State.complaint_machine, heventual, hhalts.blame,
        hcurrent]
      rfl

end Descent

end ArithLines
