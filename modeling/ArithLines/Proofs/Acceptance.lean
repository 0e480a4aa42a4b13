import ArithLines.Proofs.Descent.Parse
import ArithLines.Verdict

/-! What the check of a line yields, by its tokens alone. Main statement: the accepted lines are
those whose tokens are a statement of the grammar. -/

namespace ArithLines

open Grammar

theorem firstUnrecognized_eq_none_iff {line : List Char} :
    firstUnrecognized line = none ↔ ∀ token ∈ tokens line, token.kind ≠ .invalid := by
  rw [firstUnrecognized, tokens]
  rw [List.find?_eq_none]
  constructor
  · intro h token ht
    rcases List.mem_append.mp ht with ht | ht
    · simpa using h token ht
    · obtain rfl := List.mem_singleton.mp ht
      simp [Token.endOfLine]
  · intro h token ht
    simpa using h token (List.mem_append_left _ ht)

theorem firstUnrecognized_of_kinds {line : List Char} (h : .invalid ∉ kinds line) :
    firstUnrecognized line = none := by
  rw [firstUnrecognized, List.find?_eq_none]
  intro token ht
  have hkind : token.kind ≠ .invalid := fun hinvalid => h (hinvalid ▸ List.mem_map_of_mem ht)
  simpa using hkind

theorem firstUnrecognized_of_reach {line : List Char} {machine : Machine}
    (h : Machine.reach (kinds line) = some machine) : firstUnrecognized line = none :=
  firstUnrecognized_of_kinds fun hmem => Machine.ne_invalid_of_reach h _ hmem rfl

/-- The reason that is left where the machine halts before a token of this kind, when no token of
the line is unrecognized. -/
def Machine.reason (machine : Machine) (kind : Kind) : Reason :=
  match machine.mode with
  | .operand =>
    if kind = .leftParen then .nestingTooDeep
    else if machine.awaits then .incompleteExpression
    else if kind = .rightParen ∧ machine.groups = 0 ∨ kind = .endOfLine ∧ 0 < machine.groups then
      .unbalancedParentheses
    else .genericInvalid
  | .operator =>
    if machine.groups = 0 ∧ kind = .equal then .invalidAssignmentTarget
    else if machine.awaits then .incompleteExpression
    else if machine.groups = 0 then
      match kind with
      | .rightParen => .unbalancedParentheses
      | .invalid => .genericInvalid
      | _ => .unexpectedTrailingInput
    else if kind = .endOfLine then .unbalancedParentheses
    else .genericInvalid

namespace Findings

theorem recordFirst_of_some {findings : Findings} {line : List Char} {first : Token}
    (h : firstUnrecognized line = some first) :
    findings.recordFirst (Cursor.ofLine line).tokens =
      findings.recordUnrecognized first.lexeme first.span := by
  rw [recordFirst]
  rw [show (Cursor.ofLine line).tokens.find? (·.kind = .invalid) = some first from h]

theorem recordFirst_of_none {findings : Findings} {line : List Char}
    (h : firstUnrecognized line = none) :
    findings.recordFirst (Cursor.ofLine line).tokens = findings := by
  rw [recordFirst]
  rw [show (Cursor.ofLine line).tokens.find? (·.kind = .invalid) = none from h]

/-- An unrecognized token gives the reason and takes the blame, wherever the machine halts. -/
theorem ofHalt_of_some {line : List Char} {first : Token}
    (h : firstUnrecognized line = some first) (machine : Machine) (token : Token) :
    (ofHalt line machine token).select = .unrecognizedToken first.lexeme ∧
      (ofHalt line machine token).blame = some first.span := by
  rw [ofHalt]
  simp only [recordFirst_of_some h]
  cases hcomplaint : machine.complaint token with
  | none => exact ⟨rfl, rfl⟩
  | some complaint => cases complaint <;> exact ⟨rfl, rfl⟩

/-- The machine and the kind of the token tell which of the flags is raised that counts. -/
theorem select_complain (line : List Char) (machine : Machine) (token : Token) :
    ((machine.complaint token).elim (ofMachine line machine)
      (ofMachine line machine).complain).select = machine.reason token.kind := by
  obtain ⟨mode, groups, awaits⟩ := machine
  unfold Machine.complaint Machine.reason
  generalize token.kind = kind
  cases mode with
  | operand =>
    cases kind
    case rightParen | endOfLine => by_cases hgroups : groups = 0 <;> cases awaits <;>
      simp [hgroups, ofMachine, complain, select, Nat.pos_iff_ne_zero]
    all_goals rfl
  | operator =>
    by_cases hgroups : groups = 0
    · subst hgroups
      cases kind <;> cases awaits <;> rfl
    · cases kind <;> cases awaits <;> simp [hgroups, ofMachine, complain, select]

theorem ofHalt_of_none {line : List Char} (h : firstUnrecognized line = none) (machine : Machine)
    (token : Token) :
    (ofHalt line machine token).select = machine.reason token.kind ∧
      (ofHalt line machine token).blame = some token.span := by
  rw [← select_complain line]
  rw [ofHalt]
  simp only [recordFirst_of_none h]
  cases hcomplaint : machine.complaint token with
  | none => exact ⟨rfl, rfl⟩
  | some complaint => cases complaint <;> exact ⟨rfl, rfl⟩

end Findings

/-- A line is accepted with its tree where the machine accepts at its end, and rejected for what is
found where the machine stalls. -/
inductive Examined (line : List Char) : Examination → Prop
  | accepted {machine : Machine} {parsed : Statement} {events : List Event} :
      Machine.reach (kinds line) = some machine → machine.Accepts →
      Examined line ⟨.accept, some parsed, events⟩
  | rejected {read rest : List Token} {machine : Machine} {findings : Findings}
      {events : List Event} :
      Stalls line read rest machine →
      findings = .ofHalt line machine (rest.headD (.endOfLine line.length)) →
      Examined line ⟨.reject findings.select findings.blame, none, events⟩

theorem examined (line : List Char) : Examined line (examine line) := by
  rw [examine]
  cases hparse : Descent.parse (.ofLine line) with
  | mk result last =>
    rw [show Descent.parse (.ofReading (.ofLine line {})) = (result, last) from hparse]
    cases result with
    | ok parsed =>
      obtain ⟨machine, hreach, haccepts, hfindings⟩ := Descent.parse_ok hparse
      simp only [hfindings]
      exact .accepted hreach haccepts
    | error blame =>
      obtain ⟨read, rest, machine, hstalls, -, -, hfindings⟩ := Descent.parse_error hparse
      simp only [hfindings]
      exact .rejected hstalls rfl

theorem examine_of_ok {line : List Char} {parsed : Statement} {last : Descent.State}
    (h : Descent.parse (.ofLine line) = (.ok parsed, last)) :
    (examine line).verdict = .accept ∧ (examine line).statement = some parsed := by
  obtain ⟨machine, -, -, hfindings⟩ := Descent.parse_ok h
  rw [examine]
  rw [show Descent.parse (.ofReading (.ofLine line {})) = (.ok parsed, last) from h]
  simp only [hfindings]
  exact ⟨rfl, rfl⟩

/-- An accepted line is one that parses. -/
theorem exists_parse_of_accepted {line : List Char} (h : (validate line).accepted = true) :
    ∃ parsed last, Descent.parse (.ofLine line) = (.ok parsed, last) := by
  cases hparse : Descent.parse (.ofLine line) with
  | mk result last =>
    cases result with
    | ok parsed => exact ⟨parsed, last, rfl⟩
    | error blame =>
      obtain ⟨read, rest, machine, -, -, -, hfindings⟩ := Descent.parse_error hparse
      have hfailed : last.findings.rejects = true := by
        rw [hfindings]
        rfl
      rw [validate, examine] at h
      rw [show Descent.parse (.ofReading (.ofLine line {})) = (.error blame, last) from hparse] at h
      simp [Verdict.ofFindings, Findings.reason?, hfailed, Verdict.reject] at h

theorem validate_cases (line : List Char) :
    (∃ machine, Machine.reach (kinds line) = some machine ∧ machine.Accepts ∧
      validate line = .accept) ∨
    ∃ read rest machine, Stalls line read rest machine ∧
      validate line = .reject
        (Findings.ofHalt line machine (rest.headD (.endOfLine line.length))).select
        (Findings.ofHalt line machine (rest.headD (.endOfLine line.length))).blame := by
  rw [validate]
  cases hexamine : examine line with
  | mk verdict statement events =>
    cases hexamine ▸ examined line with
    | accepted hreach haccepts => exact .inl ⟨_, hreach, haccepts, rfl⟩
    | rejected hstalls hfindings => exact .inr ⟨_, _, _, hstalls, by rw [hfindings]⟩

theorem sentence_of_accepted {line : List Char} (h : (validate line).accepted = true) :
    Sentence Descent.depthLimit (kinds line) := by
  rcases validate_cases line with
    ⟨machine, hreach, haccepts, -⟩ | ⟨read, rest, machine, -, hvalidate⟩
  · exact sentence_iff.mpr ⟨machine, hreach, haccepts⟩
  · rw [hvalidate] at h
    exact nomatch h

theorem Stalls.not_sentence {line : List Char} {read rest : List Token} {machine : Machine}
    (h : Stalls line read rest machine) : ¬Sentence Descent.depthLimit (kinds line) := by
  rw [kinds, h.split, List.map_append]
  exact h.stuck.not_sentence

theorem validate_of_accepting {line : List Char} {machine : Machine}
    (h : Machine.reach (kinds line) = some machine) (haccepts : machine.Accepts) :
    validate line = .accept := by
  rcases validate_cases line with ⟨-, -, -, hvalidate⟩ | ⟨read, rest, last, hstalls, -⟩
  · exact hvalidate
  · exact absurd (sentence_iff.mpr ⟨machine, h, haccepts⟩) hstalls.not_sentence

/-- A line all of which the machine reads without accepting is to blame at its end. -/
theorem validate_of_stuck_at_end {line : List Char} {machine : Machine}
    (h : Machine.Stuck (kinds line) [] machine) :
    validate line = .reject (machine.reason .endOfLine) (some (.single line.length)) := by
  rcases validate_cases line with
    ⟨last, hreach, haccepts, -⟩ | ⟨read, rest, last, hstalls, hvalidate⟩
  · have hsentence := sentence_iff.mpr ⟨last, hreach, haccepts⟩
    exact absurd (by rwa [List.append_nil]) h.not_sentence
  · have hsplit : kinds line ++ [] = read.map Token.kind ++ rest.map Token.kind := by
      rw [List.append_nil, kinds, hstalls.split, List.map_append]
    obtain ⟨-, hrest, rfl⟩ := h.unique hstalls.stuck hsplit
    obtain rfl : rest = [] := List.map_eq_nil_iff.mp hrest.symm
    obtain ⟨hreason, hblame⟩ :=
      Findings.ofHalt_of_none (firstUnrecognized_of_reach h.reach) machine (.endOfLine line.length)
    rw [hvalidate, List.headD_nil, hreason, hblame]
    rfl

/-- A line is accepted if and only if it has no unrecognized token and its tokens are a statement in
which at most 256 groups are open at once. An accepted line has a tree and neither reason nor span,
a rejected line has both and no tree. -/
theorem accepted_iff_sentence (line : List Char) :
    ((validate line).accepted = true ↔
      (∀ token ∈ tokens line, token.kind ≠ .invalid) ∧ Sentence 256 (kinds line)) ∧
    ((validate line).accepted = true →
      (validate line).reason = none ∧ (validate line).span = none ∧
        (examine line).statement.isSome = true) ∧
    ((validate line).accepted = false →
      (validate line).reason.isSome = true ∧ (validate line).span.isSome = true ∧
        (examine line).statement = none) := by
  rw [← firstUnrecognized_eq_none_iff]
  rw [validate]
  cases hexamine : examine line with
  | mk verdict statement events =>
    cases hexamine ▸ examined line with
    | accepted hreach haccepts =>
      refine ⟨⟨fun _ => ⟨firstUnrecognized_of_reach hreach, ?_⟩, fun _ => rfl⟩,
        fun _ => ⟨rfl, rfl, rfl⟩, nofun⟩
      exact sentence_iff.mpr ⟨_, hreach, haccepts⟩
    | rejected hstalls hfindings =>
      refine ⟨⟨nofun, fun h => absurd h.2 hstalls.not_sentence⟩, nofun, fun _ => ⟨rfl, ?_, rfl⟩⟩
      cases hfirst : firstUnrecognized line with
      | none => rw [hfindings, (Findings.ofHalt_of_none hfirst ..).2]; rfl
      | some first => rw [hfindings, (Findings.ofHalt_of_some hfirst ..).2]; rfl

end ArithLines
