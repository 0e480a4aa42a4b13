import ArithLines.Proofs.Acceptance

/-! The counter machine as a reader of whole lines. It takes the tokens from left to right, and where
it fails its state and the token tell all that is found in the line. Main statement: the descent
fails where the machine does, at the same token and with the same findings. -/

namespace ArithLines

open Descent (depthLimit)

namespace Machine

/-- Where the machine fails: at the first token that it cannot read, unless that is the end of the
line and the machine accepts. -/
def failure? (machine : Machine) : List Token → Option (Machine × Token)
  | [] => none
  | token :: tokens =>
    match machine.step 0 token.kind with
    | some next => next.failure? tokens
    | none => if token.kind = .endOfLine ∧ machine.Accepts then none else some (machine, token)

/-- Where it fails in a whole line. After a name and `=` that begin the line the machine starts as
if it had read the `=`. -/
def lineFailure? (tokens : List Token) : Option (Machine × Token) :=
  if beginsAssignment (tokens.map Token.kind) then (start true).failure? (tokens.drop 2)
  else (start false).failure? tokens

theorem failure?_of_run {machine last : Machine} {read : List Token}
    (h : machine.run 0 (read.map Token.kind) = some last) (rest : List Token) :
    machine.failure? (read ++ rest) = last.failure? rest := by
  induction read generalizing machine with
  | nil =>
    obtain rfl : machine = last := Option.some.inj h
    rfl
  | cons token read ih =>
    obtain ⟨next, hstep, hrun⟩ := Option.bind_eq_some_iff.mp h
    rw [List.cons_append, failure?, hstep]
    exact ih hrun

theorem failure?_accepting {machine : Machine} (h : machine.Accepts) (length : Nat) :
    machine.failure? [.endOfLine length] = none := by
  simp [failure?, Token.endOfLine, h]

theorem failure?_blocked {machine : Machine} {token : Token}
    (hstep : machine.step 0 token.kind = none)
    (hend : token.kind = .endOfLine → ¬machine.Accepts) (rest : List Token) :
    machine.failure? (token :: rest) = some (machine, token) := by
  rw [failure?, hstep]
  exact if_neg fun h => hend h.1 h.2

/-- A line that the machine has read up to `rest` fails where the machine does from there on. -/
theorem lineFailure?_of_reach {read rest : List Token} {machine : Machine}
    (h : reach (read.map Token.kind) = some machine)
    (hform : beginsAssignment ((read ++ rest).map Token.kind) = true →
      beginsAssignment (read.map Token.kind) = true) :
    lineFailure? (read ++ rest) = machine.failure? rest := by
  rw [lineFailure?]
  by_cases hread : beginsAssignment (read.map Token.kind) = true
  · obtain ⟨target, equals, body, rfl, htarget, hequals⟩ := exists_of_beginsAssignment hread
    have hboth : beginsAssignment ((target :: equals :: body ++ rest).map Token.kind) = true := by
      simp [htarget, hequals, beginsAssignment]
    rw [if_pos hboth]
    rw [List.map_cons, List.map_cons, htarget, hequals, reach_assignment] at h
    exact failure?_of_run h rest
  · rw [if_neg fun hline => hread (hform hline)]
    have hplain : ∀ more, read.map Token.kind ≠ .identifier :: .equal :: more :=
      fun more hmore => hread (beginsAssignment_iff.mpr ⟨more, hmore⟩)
    rw [reach_of_not_assignment hplain] at h
    exact failure?_of_run h rest

/-- Before the machine is stuck it has read the target and the `=` of an assignment. -/
theorem Stuck.beginsAssignment {before after : List Kind} {machine : Machine}
    (h : Stuck before after machine) (hform : beginsAssignment (before ++ after) = true) :
    Machine.beginsAssignment before = true := by
  obtain ⟨rest, hrest⟩ := beginsAssignment_iff.mp hform
  match before, h, hrest with
  | [], h, hrest => exact absurd (h.blocked _ _ hrest) (by decide)
  | [name], h, hrest =>
    simp only [List.cons_append, List.nil_append, List.cons.injEq] at hrest
    obtain ⟨rfl, hrest⟩ := hrest
    exact absurd (h.blocked _ _ hrest) (by decide)
  | name :: equals :: more, _, hrest =>
    simp only [List.cons_append, List.cons.injEq] at hrest
    rw [hrest.1, hrest.2.1]
    rfl

end Machine

namespace Findings

/-- What is found in a line in which `first` is the first unrecognized token, when the machine fails
at `token`. -/
def ofFailure (assignment : Bool) (first : Option Token) (machine : Machine) (token : Token) :
    Findings where
  assignment := assignment
  complexTarget := machine.mode = .operator ∧ machine.groups = 0 ∧ token.kind = .equal
  awaitsOperand := machine.awaits
  unrecognized := first.isSome
  nestedTooDeep := machine.mode = .operand ∧ token.kind = .leftParen
  unbalanced := token.kind = .rightParen ∧ machine.groups = 0 ∨
    token.kind = .endOfLine ∧ 0 < machine.groups
  trailing := machine.mode = .operator ∧ machine.groups = 0 ∧ token.kind.beginsOperand
  failed := true
  unrecognizedText := first.map Token.lexeme
  blame := some (first.getD token).span

/-- What the machine finds in a line with these tokens. -/
def ofTokens (tokens : List Token) : Findings :=
  let assignment := Machine.beginsAssignment (tokens.map Token.kind)
  match Machine.lineFailure? tokens with
  | none => { assignment }
  | some (machine, token) =>
    ofFailure assignment (tokens.find? (·.kind = .invalid)) machine token

/-- What is found in a line apart from complaints, when `first` is its first unrecognized token. -/
def unfailed (assignment awaits : Bool) (first : Option Token) : Findings where
  assignment := assignment
  awaitsOperand := awaits
  unrecognized := first.isSome
  unrecognizedText := first.map Token.lexeme
  blame := first.map Token.span

theorem recordFirst_ofMachine (line : List Char) (machine : Machine) :
    (ofMachine line machine).recordFirst (Cursor.ofLine line).tokens =
      unfailed (Machine.beginsAssignment (kinds line)) machine.awaits (firstUnrecognized line) := by
  cases hfirst : firstUnrecognized line with
  | none => exact recordFirst_of_none hfirst
  | some first => exact recordFirst_of_some hfirst

/-- The complaint at a token that the machine cannot read raises the flags that its state and the
kind of the token tell. -/
theorem elim_complain {assignment awaits : Bool} {first : Option Token} {machine : Machine}
    {token : Token} (hstep : machine.step 0 token.kind = none)
    (hend : token.kind = .endOfLine → ¬machine.Accepts) :
    (machine.complaint token).elim (unfailed assignment awaits first)
        (unfailed assignment awaits first).complain =
      { unfailed assignment awaits first with
        complexTarget := machine.mode = .operator ∧ machine.groups = 0 ∧ token.kind = .equal
        nestedTooDeep := machine.mode = .operand ∧ token.kind = .leftParen
        unbalanced := token.kind = .rightParen ∧ machine.groups = 0 ∨
          token.kind = .endOfLine ∧ 0 < machine.groups
        trailing := machine.mode = .operator ∧ machine.groups = 0 ∧ token.kind.beginsOperand } := by
  obtain ⟨mode, groups, awaits⟩ := machine
  unfold Machine.complaint
  generalize token.kind = kind at *
  by_cases hgroups : groups = 0
  · subst hgroups
    cases mode with
    | operand => cases kind <;> rfl
    | operator =>
      cases kind
      case plus | minus | star | slash => exact nomatch hstep
      case endOfLine => exact absurd ⟨rfl, rfl⟩ (hend rfl)
      all_goals rfl
  · have hpos : 0 < groups := Nat.pos_of_ne_zero hgroups
    cases mode <;> cases kind <;> simp [hgroups, hpos, unfailed, complain]

theorem ofHalt_eq_ofFailure {line : List Char} {machine : Machine} {token : Token}
    (hstep : machine.step 0 token.kind = none)
    (hend : token.kind = .endOfLine → ¬machine.Accepts) :
    ofHalt line machine token = ofFailure (Machine.beginsAssignment (kinds line))
      (firstUnrecognized line) machine token := by
  rw [ofHalt, recordFirst_ofMachine]
  simp only [elim_complain hstep hend]
  cases firstUnrecognized line <;> rfl

end Findings

theorem Machine.beginsAssignment_tokens (line : List Char) :
    beginsAssignment ((tokens line).map Token.kind) = beginsAssignment (kinds line) := by
  rw [tokens, List.map_append]
  change beginsAssignment (kinds line ++ [Kind.endOfLine]) = _
  generalize kinds line = kinds
  cases kinds with
  | nil => rfl
  | cons first rest =>
    cases rest with
    | nil => cases first <;> rfl
    | cons second rest => cases first <;> cases second <;> rfl

namespace Stalls

variable {line : List Char} {read rest : List Token} {machine : Machine}

/-- The machine stalls at a token that it cannot read, which is not the end of a statement. -/
theorem blocked (h : Stalls line read rest machine) :
    machine.step 0 (rest.headD (.endOfLine line.length)).kind = none ∧
      ((rest.headD (.endOfLine line.length)).kind = .endOfLine → ¬machine.Accepts) := by
  cases rest with
  | nil => exact ⟨machine.step_endOfLine 0, fun _ => h.stuck.unfinished rfl⟩
  | cons token more =>
    have hmem : token ∈ (Cursor.ofLine line).tokens := by simp [h.split]
    exact ⟨h.stuck.step, fun hend => absurd hend (Cursor.kind_ne_endOfLine token hmem)⟩

theorem lineFailure? (h : Stalls line read rest machine) :
    Machine.lineFailure? (tokens line) = some (machine, rest.headD (.endOfLine line.length)) := by
  obtain ⟨hstep, hend⟩ := h.blocked
  have hform : Machine.beginsAssignment ((tokens line).map Token.kind) = true →
      Machine.beginsAssignment (read.map Token.kind) = true := by
    rw [Machine.beginsAssignment_tokens, kinds, h.split, List.map_append]
    exact h.stuck.beginsAssignment
  rw [tokens, h.split, List.append_assoc] at hform ⊢
  rw [Machine.lineFailure?_of_reach h.stuck.reach hform]
  cases rest with
  | nil => exact Machine.failure?_blocked hstep hend []
  | cons token more => exact Machine.failure?_blocked hstep hend _

end Stalls

namespace Descent

theorem lineFailure?_of_accepting {line : List Char} {machine : Machine}
    (h : Machine.reach (kinds line) = some machine) (haccepts : machine.Accepts) :
    Machine.lineFailure? (tokens line) = none := by
  have hform := Machine.beginsAssignment_tokens line
  rw [tokens] at hform ⊢
  rw [Machine.lineFailure?_of_reach h fun htokens => hform.symm.trans htokens]
  exact Machine.failure?_accepting haccepts line.length

/-- A parse succeeds on the lines in which the machine does not fail, and otherwise fails at the
token at which the machine does, with no more than 256 groups open. Its findings are what the machine
finds. An assignment is found if and only if the first two tokens are a name and `=`, and nothing
else is found in a line that parses. -/
theorem parse_refines_machine (line : List Char) :
    ((∃ parsed, (parse (.ofLine line)).1 = .ok parsed) ↔
      Machine.lineFailure? (tokens line) = none) ∧
    (∀ blame, (parse (.ofLine line)).1 = .error blame →
      blame = (parse (.ofLine line)).2.current.span ∧
      ∃ machine, machine.groups ≤ 256 ∧
        Machine.lineFailure? (tokens line) = some (machine, (parse (.ofLine line)).2.current)) ∧
    (parse (.ofLine line)).2.findings = .ofTokens (tokens line) ∧
    ((parse (.ofLine line)).2.findings.assignment = true ↔
      ∃ rest, (tokens line).map Token.kind = .identifier :: .equal :: rest) ∧
    (∀ parsed, (parse (.ofLine line)).1 = .ok parsed →
      (parse (.ofLine line)).2.findings =
        { assignment := (parse (.ofLine line)).2.findings.assignment }) := by
  have hfirst := find?_tokens line
  have hform := Machine.beginsAssignment_tokens line
  cases hparse : parse (.ofLine line) with
  | mk result last =>
    cases result with
    | ok parsed =>
      obtain ⟨machine, hreach, haccepts, hfindings⟩ := parse_ok hparse
      have hnone := lineFailure?_of_accepting hreach haccepts
      have hawaits := (Machine.recalls_of_reach hreach).awaits_of_operator haccepts.1
      rw [Findings.ofMachine, hawaits] at hfindings
      refine ⟨⟨fun _ => hnone, fun _ => ⟨parsed, rfl⟩⟩, by simp, ?_, ?_, fun _ _ => ?_⟩
      · rw [hfindings, Findings.ofTokens, hnone, hform]
      · rw [← Machine.beginsAssignment_iff, hform, hfindings]
      · rw [hfindings]
    | error blame =>
      obtain ⟨read, rest, machine, hstalls, hcurrent, rfl, hfindings⟩ := parse_error hparse
      have hfailure := hstalls.lineFailure?
      obtain ⟨hstep, hend⟩ := hstalls.blocked
      rw [Findings.ofHalt_eq_ofFailure hstep hend] at hfindings
      refine ⟨⟨by simp, fun hnone => ?_⟩, fun blame hblame => ?_, ?_, ?_, by simp⟩
      · simp [hfailure] at hnone
      · obtain rfl := Except.error.inj hblame
        exact ⟨by rw [hcurrent], machine, Machine.groups_le_of_reach hstalls.stuck.reach,
          by rw [hfailure, hcurrent]⟩
      · rw [hfindings, Findings.ofTokens, hfailure, hfirst, hform]
      · rw [← Machine.beginsAssignment_iff, hform, hfindings]
        rfl

end Descent

end ArithLines
