import ArithLines.Proofs.Acceptance

/-! The reason for which a line without unrecognized tokens is rejected, read off the kinds of its
tokens. Each reason has its flaw, stated by the grammar; the machine is stuck with that reason in
the lines with that flaw and in no others. -/

namespace ArithLines

open Descent (depthLimit)

namespace Grammar

variable (room : Nat) (kinds : List Kind)

/-- A statement other than a single name is followed by `=`. -/
def UnassignableTarget : Prop :=
  ∃ before after, kinds = before ++ .equal :: after ∧ Sentence room before ∧ before ≠ [.identifier]

/-- A statement is followed by a token that an operand begins with. -/
def TrailingOperand : Prop :=
  ∃ before kind after, kinds = before ++ kind :: after ∧ Sentence room before ∧
    kind.beginsOperand = true

/-- A group opens inside as many groups as there is room for. -/
def GroupTooDeep : Prop :=
  ∃ before after, kinds = before ++ .leftParen :: after ∧ Viable room before ∧
    expectsOperand before = true ∧ openGroups before = room

/-- After an operator or `=` no operand begins. -/
def OperandMissing : Prop :=
  ∃ before after, kinds = before ++ after ∧ Viable room before ∧
    before.getLast?.any Kind.awaitsOperand = true ∧ after.head?.all (!·.beginsOperand) = true

/-- A group is closed that is not open, or one is open at the end of the line. -/
def ParenthesisUnmatched : Prop :=
  (∃ before after, kinds = before ++ .rightParen :: after ∧ Sentence room before) ∨
  kinds.head? = some .rightParen ∨
  (Viable room kinds ∧ 0 < openGroups kinds ∧ kinds.getLast?.any Kind.isOperator = false)

/-- What is wrong with a line that is rejected for this reason, if no token is unrecognized. -/
def Flaw : Reason → Prop
  | .unrecognizedToken _ => False
  | .nestingTooDeep => GroupTooDeep room kinds
  | .invalidAssignmentTarget => UnassignableTarget room kinds
  | .incompleteExpression => OperandMissing room kinds
  | .unbalancedParentheses => ParenthesisUnmatched room kinds
  | .unexpectedTrailingInput => TrailingOperand room kinds
  | .genericInvalid => ¬Sentence room kinds ∧ ¬GroupTooDeep room kinds ∧
      ¬UnassignableTarget room kinds ∧ ¬OperandMissing room kinds ∧
      ¬ParenthesisUnmatched room kinds ∧ ¬TrailingOperand room kinds

end Grammar

namespace Machine

open Grammar

variable {machine : Machine} {kinds before after : List Kind}

/-- The machine is stuck in a line of these kinds, and gives this reason there. -/
def Rejects (kinds : List Kind) (reason : Reason) : Prop :=
  ∃ before after machine, kinds = before ++ after ∧ Stuck before after machine ∧
    machine.reason (after.headD .endOfLine) = reason

theorem Rejects.unique {reason reason' : Reason} (h : Rejects kinds reason)
    (h' : Rejects kinds reason') : reason = reason' := by
  obtain ⟨before, after, machine, hkinds, hstuck, rfl⟩ := h
  obtain ⟨before', after', machine', hkinds', hstuck', rfl⟩ := h'
  obtain ⟨-, rfl, rfl⟩ := hstuck.unique hstuck' (hkinds.symm.trans hkinds')
  rfl

theorem Rejects.not_sentence {reason : Reason} (h : Rejects kinds reason) :
    ¬Sentence depthLimit kinds := by
  obtain ⟨before, after, machine, rfl, hstuck, -⟩ := h
  exact hstuck.not_sentence

theorem rejects_at {kind : Kind} (hreach : reach before = some machine) (hkind : kind ≠ .equal)
    (hstep : machine.step 0 kind = none) :
    Rejects (before ++ kind :: after) (machine.reason kind) :=
  ⟨before, kind :: after, machine, rfl, stuck_of_step hreach (fun hname => hkind hname.2) hstep,
    rfl⟩

theorem rejects_after_sentence {kind : Kind} (h : Sentence depthLimit before)
    (hname : ¬(before = [.identifier] ∧ kind = .equal)) (hkind : kind.isOperator = false) :
    Rejects (before ++ kind :: after) (reason ⟨.operator, 0, false⟩ kind) := by
  have hstep : step 0 ⟨.operator, 0, false⟩ kind = none := by
    cases kind <;> first | rfl | exact absurd hkind (by decide)
  exact ⟨before, kind :: after, _, rfl, stuck_of_step (reach_of_sentence h) hname hstep, rfl⟩

end Machine

namespace Grammar

open Machine

variable {kinds : List Kind}

theorem UnassignableTarget.rejects (h : UnassignableTarget depthLimit kinds) :
    Rejects kinds .invalidAssignmentTarget := by
  obtain ⟨before, after, rfl, hsentence, hname⟩ := h
  exact rejects_after_sentence hsentence (fun h => hname h.1) rfl

theorem TrailingOperand.rejects (h : TrailingOperand depthLimit kinds) :
    Rejects kinds .unexpectedTrailingInput := by
  obtain ⟨before, kind, after, rfl, hsentence, hkind⟩ := h
  have hrejects : kind ≠ .equal → kind.isOperator = false →
      Rejects (before ++ kind :: after) (reason ⟨.operator, 0, false⟩ kind) :=
    fun hne hop => rejects_after_sentence hsentence (fun h => hne h.2) hop
  cases kind <;> first | exact hrejects nofun rfl | exact absurd hkind (by decide)

theorem GroupTooDeep.rejects (h : GroupTooDeep depthLimit kinds) :
    Rejects kinds .nestingTooDeep := by
  obtain ⟨before, after, rfl, hviable, hexpects, hgroups⟩ := h
  obtain ⟨machine, hreach⟩ := viable_iff.mp hviable
  have hrecalls := recalls_of_reach hreach
  have hmode := hrecalls.mode.mpr hexpects
  rw [hrecalls.openGroups_eq] at hgroups
  obtain ⟨mode, groups, awaits⟩ := machine
  simp only at hmode hgroups
  subst hmode hgroups
  exact ⟨before, _, _, rfl, stuck_of_step hreach (by simp) (by simp [step]), rfl⟩

theorem OperandMissing.rejects (h : OperandMissing depthLimit kinds) :
    Rejects kinds .incompleteExpression := by
  obtain ⟨before, after, rfl, hviable, hlast, hnext⟩ := h
  obtain ⟨machine, hreach⟩ := viable_iff.mp hviable
  have hrecalls := recalls_of_reach hreach
  have hawaits : machine.awaits = true := by rw [hrecalls.awaits, hlast]
  have hmode := hrecalls.operand_of_awaits hawaits
  obtain ⟨mode, groups, awaits⟩ := machine
  simp only at hmode hawaits
  subst hmode hawaits
  cases after with
  | nil => exact ⟨before, [], _, rfl, stuck_of_end hreach nofun, rfl⟩
  | cons kind after =>
    have hname : ¬(before = [.identifier] ∧ kind = .equal) := by
      rintro ⟨rfl, -⟩
      exact absurd hlast (by decide)
    have hkind : kind.beginsOperand = false := by simpa using hnext
    have hstep : step 0 ⟨.operand, groups, true⟩ kind = none := by
      cases kind <;> first | rfl | exact absurd hkind (by decide)
    refine ⟨before, kind :: after, _, rfl, stuck_of_step hreach hname hstep, ?_⟩
    cases kind <;> first | rfl | exact absurd hkind (by decide)

theorem rejects_of_open (hviable : Viable depthLimit kinds) (hopen : 0 < openGroups kinds)
    (hlast : kinds.getLast?.any Kind.isOperator = false) :
    Rejects kinds .unbalancedParentheses := by
  obtain ⟨machine, hreach⟩ := viable_iff.mp hviable
  have hrecalls := recalls_of_reach hreach
  rw [hrecalls.openGroups_eq] at hopen
  have hawaits : machine.awaits = false := by
    rw [hrecalls.awaits]
    induction kinds using List.reverseRecOn with
    | nil => rfl
    | append_singleton kinds kind _ =>
      -- An `=` is read outside every group only, so here the last kind is none.
      have hequal : kind ≠ .equal := by
        rintro rfl
        have := groups_of_equal hreach
        omega
      simpa [Kind.awaitsOperand, hequal] using hlast
  have hend : ¬machine.Accepts := fun haccepts => by
    have := haccepts.2
    omega
  refine ⟨kinds, [], machine, by simp, stuck_of_end hreach hend, ?_⟩
  obtain ⟨mode, groups, awaits⟩ := machine
  simp only at hopen hawaits
  subst hawaits
  have hgroups : groups ≠ 0 := by omega
  cases mode <;> simp [reason, hgroups, hopen]

theorem ParenthesisUnmatched.rejects (h : ParenthesisUnmatched depthLimit kinds) :
    Rejects kinds .unbalancedParentheses := by
  rcases h with ⟨before, after, rfl, hsentence⟩ | hhead | ⟨hviable, hopen, hlast⟩
  · exact rejects_after_sentence hsentence (by simp) rfl
  · cases kinds with
    | nil => simp at hhead
    | cons kind kinds =>
      obtain rfl := Option.some.inj hhead
      exact ⟨[], .rightParen :: kinds, _, rfl, stuck_of_step reach_nil (by simp) rfl, rfl⟩
  · exact rejects_of_open hviable hopen hlast

end Grammar

namespace Machine

open Grammar

variable {machine : Machine} {kinds before after : List Kind}

namespace Stuck

theorem groupTooDeep {more : List Kind} (h : Stuck before (.leftParen :: more) machine)
    (hmode : machine.mode = .operand) :
    GroupTooDeep depthLimit (before ++ .leftParen :: more) := by
  have hrecalls := recalls_of_reach h.reach
  have hgroups : machine.groups = depthLimit := by
    have hle := groups_le_of_reach h.reach
    have hstep := h.step
    obtain ⟨mode, groups, awaits⟩ := machine
    subst hmode
    simp only [Machine.step, ite_eq_right_iff, reduceCtorEq, imp_false, Nat.not_lt] at hstep
    exact Nat.le_antisymm hle hstep
  exact ⟨before, more, rfl, h.viable, hrecalls.mode.mp hmode, hrecalls.openGroups_eq.trans hgroups⟩

theorem operandMissing (h : Stuck before after machine) (hawaits : machine.awaits = true)
    (hnext : after.headD .endOfLine ≠ .leftParen) : OperandMissing depthLimit (before ++ after) := by
  have hrecalls := recalls_of_reach h.reach
  have hmode := hrecalls.operand_of_awaits hawaits
  refine ⟨before, after, rfl, h.viable, hrecalls.awaits.symm.trans hawaits, ?_⟩
  cases after with
  | nil => rfl
  | cons kind more =>
    have hstep := h.step
    obtain ⟨mode, groups, awaits⟩ := machine
    subst hmode
    cases kind <;> first | rfl | exact absurd rfl hnext | simp [Machine.step] at hstep

theorem sentence (h : Stuck before after machine) (hmode : machine.mode = .operator)
    (hgroups : machine.groups = 0) : Sentence depthLimit before :=
  sentence_iff.mpr ⟨machine, h.reach, hmode, hgroups⟩

theorem openAtEnd (h : Stuck before [] machine) (hawaits : machine.awaits = false)
    (hgroups : 0 < machine.groups) : ParenthesisUnmatched depthLimit before := by
  have hrecalls := recalls_of_reach h.reach
  have hopen : 0 < openGroups before := by rwa [hrecalls.openGroups_eq]
  have hlast : before.getLast?.any Kind.isOperator = false := by
    have hany := hrecalls.awaits
    rw [hawaits] at hany
    cases hlast : before.getLast? with
    | none => rfl
    | some last =>
      simp only [hlast, Option.any_some, Kind.awaitsOperand] at hany ⊢
      exact (Bool.or_eq_false_iff.mp hany.symm).1
  exact .inr (.inr ⟨h.viable, hopen, hlast⟩)

end Stuck

theorem flaw_of_operand (h : Stuck before after machine) (hend : .endOfLine ∉ after)
    (hmode : machine.mode = .operand)
    (hgeneric : machine.reason (after.headD .endOfLine) ≠ .genericInvalid) :
    Flaw depthLimit (before ++ after) (machine.reason (after.headD .endOfLine)) := by
  unfold reason at hgeneric ⊢
  simp only [hmode] at hgeneric ⊢
  by_cases hopens : after.headD .endOfLine = .leftParen
  · rw [if_pos hopens]
    cases after with
    | nil => simp at hopens
    | cons kind more =>
      obtain rfl : kind = .leftParen := hopens
      exact h.groupTooDeep hmode
  by_cases hawaits : machine.awaits = true
  · rw [if_neg hopens, if_pos hawaits]
    exact h.operandMissing hawaits hopens
  rw [if_neg hopens, if_neg hawaits] at hgeneric ⊢
  split at hgeneric
  · next hunmatched =>
    rw [if_pos hunmatched]
    have hawaits : machine.awaits = false := by simpa using hawaits
    rcases hunmatched with ⟨hcloses, hgroups⟩ | ⟨hnext, hgroups⟩
    · obtain rfl := eq_nil_of_operand h.reach hmode hawaits hgroups
      cases after with
      | nil => simp at hcloses
      | cons kind more => exact .inr (.inl (congrArg some hcloses))
    · cases after with
      | nil =>
        rw [List.append_nil]
        exact h.openAtEnd hawaits hgroups
      | cons kind more =>
        obtain rfl : kind = .endOfLine := hnext
        simp at hend
  · exact absurd rfl hgeneric

theorem flaw_of_operator (h : Stuck before after machine) (hend : .endOfLine ∉ after)
    (hmode : machine.mode = .operator)
    (hgeneric : machine.reason (after.headD .endOfLine) ≠ .genericInvalid) :
    Flaw depthLimit (before ++ after) (machine.reason (after.headD .endOfLine)) := by
  have hawaits := (recalls_of_reach h.reach).awaits_of_operator hmode
  cases after with
  | nil =>
    have hgroups : machine.groups ≠ 0 := fun hgroups => h.unfinished rfl ⟨hmode, hgroups⟩
    have hreason : machine.reason .endOfLine = .unbalancedParentheses := by
      simp [reason, hmode, hawaits, hgroups]
    rw [List.append_nil, List.headD_nil, hreason]
    exact h.openAtEnd hawaits (Nat.pos_of_ne_zero hgroups)
  | cons kind more =>
    have hkind : kind ≠ .endOfLine := by
      rintro rfl
      simp at hend
    have hgroups : machine.groups = 0 := by
      by_contra hgroups
      simp [reason, hmode, hawaits, hgroups, hkind] at hgeneric
    have hsentence := h.sentence hmode hgroups
    have hstep := h.step
    rw [List.headD_cons] at hgeneric ⊢
    obtain ⟨mode, groups, awaits⟩ := machine
    simp only at hmode hawaits hgroups
    subst hmode hawaits hgroups
    cases kind
    case equal =>
      -- After a single name the machine would have read it.
      have hname : before ≠ [.identifier] := by
        rintro rfl
        exact absurd (h.blocked .equal more rfl) (by decide)
      exact ⟨before, more, rfl, hsentence, hname⟩
    case rightParen => exact .inl ⟨before, more, rfl, hsentence⟩
    case number | identifier | leftParen => exact ⟨before, _, more, rfl, hsentence, rfl⟩
    case invalid => exact absurd rfl hgeneric
    case endOfLine => exact absurd rfl hkind
    all_goals exact absurd hstep (by decide)

theorem Rejects.flaw {reason : Reason} (h : Rejects kinds reason) (hend : .endOfLine ∉ kinds)
    (hgeneric : reason ≠ .genericInvalid) : Flaw depthLimit kinds reason := by
  obtain ⟨before, after, machine, rfl, hstuck, rfl⟩ := h
  have hafter : .endOfLine ∉ after := fun hmem => hend (List.mem_append_right before hmem)
  cases hmode : machine.mode with
  | operand => exact flaw_of_operand hstuck hafter hmode hgeneric
  | operator => exact flaw_of_operator hstuck hafter hmode hgeneric

theorem rejects_generic (h : Flaw depthLimit kinds .genericInvalid) (hend : .endOfLine ∉ kinds) :
    Rejects kinds .genericInvalid := by
  obtain ⟨hsentence, hdeep, htarget, hmissing, hunmatched, htrailing⟩ := h
  obtain ⟨before, after, machine, hkinds, hstuck⟩ := exists_stuck hsentence
  have hrejects : Rejects kinds (machine.reason (after.headD .endOfLine)) :=
    ⟨before, after, machine, hkinds, hstuck, rfl⟩
  generalize machine.reason (after.headD .endOfLine) = reason at hrejects
  by_cases hgeneric : reason = .genericInvalid
  · exact hgeneric ▸ hrejects
  -- Any other reason would have its flaw, and each of them is excluded.
  have hflaw := hrejects.flaw hend hgeneric
  cases reason with
  | unrecognizedToken text => exact hflaw.elim
  | nestingTooDeep => exact absurd hflaw hdeep
  | invalidAssignmentTarget => exact absurd hflaw htarget
  | incompleteExpression => exact absurd hflaw hmissing
  | unbalancedParentheses => exact absurd hflaw hunmatched
  | unexpectedTrailingInput => exact absurd hflaw htrailing
  | genericInvalid => exact hrejects

/-- The machine is stuck with a reason in the lines with its flaw and in no others. -/
theorem rejects_iff_flaw {reason : Reason} (hend : .endOfLine ∉ kinds) :
    Rejects kinds reason ↔ Flaw depthLimit kinds reason := by
  constructor
  · intro h
    by_cases hgeneric : reason = .genericInvalid
    · subst hgeneric
      have hother {other : Reason} (h' : Rejects kinds other) : .genericInvalid = other :=
        h.unique h'
      refine ⟨h.not_sentence, ?_, ?_, ?_, ?_, ?_⟩
      · intro hdeep
        exact nomatch hother hdeep.rejects
      · intro htarget
        exact nomatch hother htarget.rejects
      · intro hmissing
        exact nomatch hother hmissing.rejects
      · intro hunmatched
        exact nomatch hother hunmatched.rejects
      · intro htrailing
        exact nomatch hother htrailing.rejects
    · exact h.flaw hend hgeneric
  · intro h
    cases reason with
    | unrecognizedToken text => exact h.elim
    | nestingTooDeep => exact GroupTooDeep.rejects h
    | invalidAssignmentTarget => exact UnassignableTarget.rejects h
    | incompleteExpression => exact OperandMissing.rejects h
    | unbalancedParentheses => exact ParenthesisUnmatched.rejects h
    | unexpectedTrailingInput => exact TrailingOperand.rejects h
    | genericInvalid => exact rejects_generic h hend

end Machine

/-- Without unrecognized tokens a line is rejected where the machine is stuck. -/
theorem reason_eq_iff_rejects {line : List Char} (h : firstUnrecognized line = none)
    (reason : Reason) :
    (validate line).reason = some reason ↔ Machine.Rejects (kinds line) reason := by
  rcases validate_cases line with ⟨machine, hreach, haccepts, hvalidate⟩ |
    ⟨read, rest, machine, hstalls, hvalidate⟩
  · rw [hvalidate]
    refine ⟨nofun, fun hrejects => absurd ?_ hrejects.not_sentence⟩
    exact Grammar.sentence_iff.mpr ⟨machine, hreach, haccepts⟩
  · have hselect := (Findings.ofHalt_of_none h machine (rest.headD (.endOfLine line.length))).1
    have hkind : (rest.headD (.endOfLine line.length)).kind =
        (rest.map Token.kind).headD .endOfLine := by
      cases rest <;> rfl
    have hrejects : Machine.Rejects (kinds line)
        (machine.reason (rest.headD (.endOfLine line.length)).kind) := by
      refine ⟨read.map Token.kind, rest.map Token.kind, machine, ?_, hstalls.stuck, ?_⟩
      · rw [kinds, hstalls.split, List.map_append]
      · rw [hkind]
    rw [hvalidate, hselect]
    constructor
    · intro hreason
      exact Option.some.inj hreason ▸ hrejects
    · intro hother
      exact congrArg some (hrejects.unique hother)

theorem endOfLine_not_mem_kinds (line : List Char) : .endOfLine ∉ kinds line := by
  intro h
  obtain ⟨token, htoken, hkind⟩ := List.mem_map.mp h
  exact Cursor.kind_ne_endOfLine token htoken hkind

theorem Grammar.ParenthesisUnmatched.not_matched {kinds : List Kind}
    (h : Grammar.ParenthesisUnmatched depthLimit kinds) : ¬Grammar.Matched kinds := by
  rintro ⟨hprefixes, htotal⟩
  rcases h with ⟨before, after, rfl, hsentence⟩ | hhead | ⟨-, hopen, -⟩
  · have hcount := hprefixes (before ++ [.rightParen]) after (by simp)
    have hgroups := (Machine.recalls_of_reach (Machine.reach_of_sentence hsentence)).groups
    simp at hcount hgroups
    omega
  · cases kinds with
    | nil => simp at hhead
    | cons kind kinds =>
      obtain rfl := Option.some.inj hhead
      have hcount := hprefixes [.rightParen] kinds rfl
      simp at hcount
  · rw [Grammar.openGroups] at hopen
    omega

/-- A line without unrecognized tokens is rejected for a reason if and only if it has its flaw.
When that is unbalanced parentheses, they do not match. -/
theorem reason_iff_flaw (line : List Char) (h : ∀ token ∈ tokens line, token.kind ≠ .invalid) :
    (∀ reason, (validate line).reason = some reason ↔ Grammar.Flaw 256 (kinds line) reason) ∧
    ((validate line).reason = some .unbalancedParentheses → ¬Grammar.Matched (kinds line)) := by
  have hfirst := firstUnrecognized_eq_none_iff.mpr h
  have hflaw (reason : Reason) :
      (validate line).reason = some reason ↔ Grammar.Flaw depthLimit (kinds line) reason :=
    (reason_eq_iff_rejects hfirst reason).trans
      (Machine.rejects_iff_flaw (endOfLine_not_mem_kinds line))
  refine ⟨hflaw, fun hreason => ?_⟩
  have hunmatched := (hflaw .unbalancedParentheses).mp hreason
  exact Grammar.ParenthesisUnmatched.not_matched hunmatched

theorem reason_iff_flaw_open_group :
    (∀ token ∈ tokens ['(', '1'], token.kind ≠ .invalid) ∧
    Grammar.Flaw 256 (kinds ['(', '1']) .unbalancedParentheses ∧
    ¬Grammar.Matched (kinds ['(', '1']) := by
  have hknown : ∀ token ∈ tokens ['(', '1'], token.kind ≠ .invalid := by decide +kernel
  have hreason : (validate ['(', '1']).reason = some .unbalancedParentheses := by decide +kernel
  obtain ⟨hflaw, hunmatched⟩ := reason_iff_flaw ['(', '1'] hknown
  exact ⟨hknown, (hflaw .unbalancedParentheses).mp hreason, hunmatched hreason⟩

end ArithLines
