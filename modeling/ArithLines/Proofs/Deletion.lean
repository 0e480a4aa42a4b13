import ArithLines.Proofs.Layout
import ArithLines.Proofs.Reasons
import Mathlib.Data.List.Infix

/-! What becomes of an accepted line that loses one of its tokens. Main statement: it is rejected, and
the token that it lost and its place tell for which reason. -/

namespace ArithLines

open Descent (depthLimit)

/-- The line with one space in the place of the characters under the span. -/
def Span.blankIn (line : List Char) (span : Span) : List Char :=
  line.take span.start ++ ' ' :: line.drop span.stop

namespace Grammar

/-- When tokens of the kinds `after` come directly after those of the kinds `before`, one of them
opens a group inside as many groups as there is room for. -/
def Overfull (room : Nat) (before after : List Kind) : Prop :=
  ∃ inside, inside ++ [.leftParen] <+: after ∧ openGroups (before ++ inside) = room

instance (room : Nat) (before after : List Kind) : Decidable (Overfull room before after) :=
  decidable_of_iff (∃ inside ∈ after.inits, inside ++ [.leftParen] <+: after ∧
      openGroups (before ++ inside) = room) (by
    constructor
    · rintro ⟨inside, -, hinside⟩
      exact ⟨inside, hinside⟩
    · rintro ⟨inside, hprefix, hgroups⟩
      have hinside := (List.prefix_append inside [.leftParen]).trans hprefix
      exact ⟨inside, (List.mem_inits _ _).mpr hinside, hprefix, hgroups⟩)

/-- Why a statement is none any more when it loses a token of this kind, that stands between tokens
of the kinds `before` and `after`. -/
def lossReason (room : Nat) (before : List Kind) (kind : Kind) (after : List Kind) : Reason :=
  match kind with
  | .leftParen => .unbalancedParentheses
  | .rightParen =>
    if Overfull room before after then .nestingTooDeep else .unbalancedParentheses
  | .equal => .unexpectedTrailingInput
  | .number | .identifier =>
    if before.getLast?.any Kind.awaitsOperand then .incompleteExpression else .genericInvalid
  | _ => if openGroups before = 0 then .unexpectedTrailingInput else .genericInvalid

end Grammar

theorem kinds_blankIn {line : List Char} {before after : List Token} {token : Token}
    (h : (Cursor.ofLine line).tokens = before ++ token :: after) :
    kinds (token.span.blankIn line) = before.map Token.kind ++ after.map Token.kind := by
  have hlayout := Layout.of_line line
  rw [h] at hlayout
  obtain ⟨head, tail, rfl, hstart, hstop, htail, hkeeps⟩ := hlayout.cut
  have hblank : token.span.blankIn (head ++ (token.lexeme ++ tail)) = head ++ ' ' :: tail := by
    rw [Span.blankIn, hstart, hstop, Nat.zero_add, List.take_left, ← List.append_assoc,
      ← List.length_append, List.drop_left]
  obtain ⟨moved, hmoved, hkinds⟩ := htail.moved (0 + head.length + 1)
  have hgap : ∀ c ∈ [' '], isLineSpace c = true := List.forall_mem_singleton.mpr rfl
  have hspace : Layout (0 + head.length) (' ' :: tail) moved := Layout.after_space hgap hmoved
  have htokens := (hkeeps (by decide) hspace).tokens_eq
  rw [hblank, kinds, Cursor.ofLine, htokens, List.map_append, hkinds]

namespace Machine

variable {machine deeper : Machine} {kinds : List Kind}

/-! ### One group more or less -/

/-- The other machine reads what this one reads, inside one group more. -/
structure OneDeeper (machine deeper : Machine) : Prop where
  mode : deeper.mode = machine.mode
  groups : deeper.groups = machine.groups + 1

namespace OneDeeper

/-- The machine follows the deeper one, unless that closes the group. -/
theorem step_down {kind : Kind} {next : Machine} (h : OneDeeper machine deeper)
    (hstep : deeper.step 0 kind = some next) :
    (∃ above, machine.step 0 kind = some above ∧ OneDeeper above next) ∨
      kind = .rightParen ∧ machine.Accepts := by
  obtain ⟨mode, groups, awaits⟩ := machine
  obtain ⟨mode', groups', awaits'⟩ := deeper
  obtain ⟨rfl, rfl⟩ : mode' = mode ∧ groups' = groups + 1 := ⟨h.mode, h.groups⟩
  cases step_eq_some_iff.mp hstep with
  | operand hkind => exact .inl ⟨_, step_eq_some_iff.mpr (.operand hkind), rfl, rfl⟩
  | opening hgroups =>
    exact .inl ⟨_, step_eq_some_iff.mpr (.opening (by omega)), rfl, rfl⟩
  | closing _ =>
    cases groups with
    | zero => exact .inr ⟨rfl, rfl, rfl⟩
    | succ groups => exact .inl ⟨_, step_eq_some_iff.mpr (.closing (Nat.zero_le _)), rfl, rfl⟩
  | operator hkind => exact .inl ⟨_, step_eq_some_iff.mpr (.operator hkind), rfl, rfl⟩

/-- The deeper machine follows, unless a group opens for which it has no room. -/
theorem step_up {kind : Kind} {next : Machine} (h : OneDeeper machine deeper)
    (hstep : machine.step 0 kind = some next) :
    (∃ below, deeper.step 0 kind = some below ∧ OneDeeper next below) ∨
      kind = .leftParen ∧ deeper.mode = .operand ∧ deeper.groups = depthLimit := by
  obtain ⟨mode, groups, awaits⟩ := machine
  obtain ⟨mode', groups', awaits'⟩ := deeper
  obtain ⟨rfl, rfl⟩ : mode' = mode ∧ groups' = groups + 1 := ⟨h.mode, h.groups⟩
  cases step_eq_some_iff.mp hstep with
  | operand hkind => exact .inl ⟨_, step_eq_some_iff.mpr (.operand hkind), rfl, rfl⟩
  | opening hgroups =>
    by_cases hroom : groups + 1 < depthLimit
    · exact .inl ⟨_, step_eq_some_iff.mpr (.opening hroom), rfl, rfl⟩
    · refine .inr ⟨rfl, rfl, ?_⟩
      show groups + 1 = depthLimit
      omega
  | closing _ => exact .inl ⟨_, step_eq_some_iff.mpr (.closing (Nat.zero_le _)), rfl, rfl⟩
  | operator hkind => exact .inl ⟨_, step_eq_some_iff.mpr (.operator hkind), rfl, rfl⟩

/-- Where the deeper machine comes out of all groups, the other one accepts before a parenthesis. -/
theorem run_down {last : Machine} (h : OneDeeper machine deeper)
    (hrun : deeper.run 0 kinds = some last) (hlast : last.groups = 0) :
    ∃ inside rest closing, kinds = inside ++ .rightParen :: rest ∧
      machine.run 0 inside = some closing ∧ closing.Accepts := by
  induction kinds generalizing machine deeper with
  | nil =>
    obtain rfl : deeper = last := Option.some.inj hrun
    have hgroups := h.groups
    omega
  | cons kind kinds ih =>
    obtain ⟨next, hstep, hrest⟩ := Option.bind_eq_some_iff.mp hrun
    rcases h.step_down hstep with ⟨above, habove, hdeeper⟩ | ⟨rfl, haccepts⟩
    · obtain ⟨inside, rest, closing, rfl, hinside, haccepts⟩ := ih hdeeper hrest
      refine ⟨kind :: inside, rest, closing, rfl, ?_, haccepts⟩
      rw [run, habove]
      exact hinside
    · exact ⟨[], kinds, machine, rfl, rfl, haccepts⟩

theorem run_up {last : Machine} (h : OneDeeper machine deeper)
    (hrun : machine.run 0 kinds = some last) :
    (∃ below, deeper.run 0 kinds = some below ∧ OneDeeper last below) ∨
      ∃ inside rest full, kinds = inside ++ .leftParen :: rest ∧
        deeper.run 0 inside = some full ∧ full.mode = .operand ∧ full.groups = depthLimit := by
  induction kinds generalizing machine deeper with
  | nil =>
    obtain rfl : machine = last := Option.some.inj hrun
    exact .inl ⟨deeper, rfl, h⟩
  | cons kind kinds ih =>
    obtain ⟨next, hstep, hrest⟩ := Option.bind_eq_some_iff.mp hrun
    rcases h.step_up hstep with ⟨below, hbelow, hdeeper⟩ | ⟨rfl, hmode, hgroups⟩
    · rcases ih hdeeper hrest with
        ⟨final, hfinal, hlast⟩ | ⟨inside, rest, full, rfl, hinside, hfull⟩
      · refine .inl ⟨final, ?_, hlast⟩
        rw [run, hbelow]
        exact hfinal
      · refine .inr ⟨kind :: inside, rest, full, rfl, ?_, hfull⟩
        rw [run, hbelow]
        exact hinside
    · exact .inr ⟨[], kinds, deeper, rfl, rfl, hmode, hgroups⟩

end OneDeeper

/-! ### The kinds of an accepted line -/

variable {before after : List Kind} {kind : Kind}

theorem inExpression_of_step {next : Machine} (h : machine.step 0 kind = some next) :
    kind.inExpression = true := by
  cases step_eq_some_iff.mp h with
  | operand hkind => rcases hkind with rfl | rfl <;> rfl
  | opening | closing => rfl
  | operator hkind => simp [Kind.inExpression, hkind]

theorem step_of_reach (h : reach (before ++ kind :: after) = some machine)
    (hname : ¬(before = [.identifier] ∧ kind = .equal)) :
    ∃ earlier next, reach before = some earlier ∧ earlier.step 0 kind = some next := by
  rw [List.append_cons] at h
  obtain ⟨next, hnext⟩ := reach_of_append h
  rw [reach_concat hname] at hnext
  obtain ⟨earlier, hearlier, hstep⟩ := Option.bind_eq_some_iff.mp hnext
  exact ⟨earlier, next, hearlier, hstep⟩

theorem eq_name_of_equal (h : reach (before ++ .equal :: after) = some machine) :
    before = [.identifier] := by
  by_contra hname
  obtain ⟨earlier, next, -, hstep⟩ := step_of_reach h fun hboth => hname hboth.1
  exact absurd (inExpression_of_step hstep) (by decide)

theorem reach_append (h : .equal ∉ after) :
    reach (before ++ after) = (reach before).bind fun middle => middle.run 0 after := by
  induction after using List.reverseRecOn with
  | nil => simp
  | append_singleton after kind ih =>
    have hkind : kind ≠ .equal := by
      rintro rfl
      simp at h
    rw [← List.append_assoc, reach_concat (fun hname => hkind hname.2),
      ih fun hmem => h (List.mem_append_left _ hmem), Option.bind_assoc]
    simp [run_append]

theorem exists_operand {groups : Nat} {awaits : Bool} {last : Machine}
    (h : (Machine.mk .operand groups awaits).run 0 kinds = some last)
    (hlast : last.mode = .operator) :
    ∃ first rest, kinds = first :: rest ∧ first.beginsOperand = true := by
  cases kinds with
  | nil =>
    obtain rfl := Option.some.inj h
    exact nomatch hlast
  | cons first rest =>
    refine ⟨first, rest, rfl, ?_⟩
    obtain ⟨next, hstep, -⟩ := Option.bind_eq_some_iff.mp h
    cases step_eq_some_iff.mp hstep with
    | operand hkind => rcases hkind with rfl | rfl <;> rfl
    | opening => rfl

theorem no_operand {groups : Nat} {awaits : Bool} {last : Machine}
    (h : (Machine.mk .operator groups awaits).run 0 kinds = some last) :
    kinds.head?.all (!·.beginsOperand) = true := by
  cases kinds with
  | nil => rfl
  | cons first rest =>
    obtain ⟨next, hstep, -⟩ := Option.bind_eq_some_iff.mp h
    cases step_eq_some_iff.mp hstep with
    | closing => rfl
    | operator hkind => cases first <;> first | rfl | exact absurd hkind (by decide)

theorem openGroups_lt_of_reach (h : reach (before ++ .leftParen :: after) = some machine) :
    Grammar.openGroups before < depthLimit := by
  obtain ⟨earlier, next, hearlier, hstep⟩ := step_of_reach h (by simp)
  rw [(recalls_of_reach hearlier).openGroups_eq]
  cases step_eq_some_iff.mp hstep with
  | operand hkind => simp at hkind
  | opening hgroups => exact hgroups
  | operator hkind => exact absurd hkind (by decide)

/-- The machine on its way through an accepted line, before and after one of its kinds. -/
structure Passes (before : List Kind) (kind : Kind) (after : List Kind) (machine next : Machine) :
    Prop where
  reach : Machine.reach before = some machine
  step : machine.step 0 kind = some next
  run : next.run 0 after = some ⟨.operator, 0, false⟩
  plain : .equal ∉ after

/-- The machine passes every kind of an accepted line but the target of an assignment and its `=`. -/
theorem passes_of_sentence (h : Grammar.Sentence depthLimit (before ++ kind :: after)) :
    (before = [.identifier] ∧ kind = .equal) ∨
    (before = [] ∧ kind = .identifier ∧ after.head? = some .equal) ∨
    ∃ machine next, Passes before kind after machine next := by
  have hreach := reach_of_sentence h
  by_cases hequal : kind = .equal
  · subst hequal
    exact .inl ⟨eq_name_of_equal hreach, rfl⟩
  by_cases hmem : .equal ∈ after
  · obtain ⟨between, rest, rfl⟩ := List.append_of_mem hmem
    rw [← List.cons_append, ← List.append_assoc] at hreach
    have hname := eq_name_of_equal hreach
    obtain ⟨rfl, hbetween⟩ : before = [] ∧ kind :: between = [.identifier] := by
      cases before with
      | nil => exact ⟨rfl, hname⟩
      | cons => simp at hname
    obtain ⟨rfl, rfl⟩ := List.cons.inj hbetween
    exact .inr (.inl ⟨rfl, rfl, rfl⟩)
  · rw [List.append_cons, reach_append hmem, reach_concat fun hname => hequal hname.2] at hreach
    obtain ⟨next, hnext, hrun⟩ := Option.bind_eq_some_iff.mp hreach
    obtain ⟨machine, hmachine, hstep⟩ := Option.bind_eq_some_iff.mp hnext
    exact .inr (.inr ⟨machine, next, hmachine, hstep, hrun, hmem⟩)

/-- Where an operand is missing that nothing awaits, what comes after it stands in its place. -/
theorem rejects_unawaited {groups : Nat} (hreach : reach before = some ⟨.operand, groups, false⟩)
    (hrun : (Machine.mk .operator groups false).run 0 after = some ⟨.operator, 0, false⟩) :
    Rejects (before ++ after) .genericInvalid := by
  cases after with
  | nil =>
    obtain rfl : groups = 0 := congrArg Machine.groups (Option.some.inj hrun)
    exact ⟨before, [], _, rfl, stuck_of_end hreach nofun, rfl⟩
  | cons first rest =>
    obtain ⟨next, hstep, -⟩ := Option.bind_eq_some_iff.mp hrun
    cases step_eq_some_iff.mp hstep with
    | @closing groups =>
      have hreason : reason ⟨.operand, groups + 1, false⟩ .rightParen = .genericInvalid := by
        simp [reason]
      exact hreason ▸ rejects_at hreach (by decide) rfl
    | operator hkind =>
      have hblocked : step 0 ⟨.operand, groups, false⟩ first = none ∧
          reason ⟨.operand, groups, false⟩ first = .genericInvalid := by
        cases first <;> first | exact ⟨rfl, rfl⟩ | exact absurd hkind (by decide)
      have hequal : first ≠ .equal := by
        rintro rfl
        exact absurd hkind (by decide)
      exact hblocked.2 ▸ rejects_at hreach hequal hblocked.1

namespace Passes

open Grammar

variable {next : Machine}

theorem reach_without (h : Passes before kind after machine next) {inside rest : List Kind}
    (hafter : after = inside ++ rest) :
    Machine.reach (before ++ inside) = machine.run 0 inside := by
  have hplain : .equal ∉ inside := fun hmem => h.plain (hafter ▸ List.mem_append_left rest hmem)
  rw [reach_append hplain, h.reach]
  rfl

/-- Without the parenthesis that opens a group, the one that closes the outermost group around it
closes none. -/
theorem unmatched (h : Passes before .leftParen after machine next) :
    ParenthesisUnmatched depthLimit (before ++ after) := by
  have hdeeper : OneDeeper machine next := by
    cases step_eq_some_iff.mp h.step with
    | operand hkind => simp at hkind
    | opening => exact ⟨rfl, rfl⟩
    | operator hkind => exact absurd hkind (by decide)
  obtain ⟨inside, rest, closing, hafter, hinside, haccepts⟩ := hdeeper.run_down h.run rfl
  have hsentence : Sentence depthLimit (before ++ inside) :=
    sentence_iff.mpr ⟨closing, (h.reach_without hafter).trans hinside, haccepts⟩
  exact .inl ⟨before ++ inside, rest, by rw [hafter, List.append_assoc], hsentence⟩

/-- Without the parenthesis that closes a group, that stays open to the end of the line, if it leaves
room for those that follow. -/
theorem stays_open (h : Passes before .rightParen after machine next) :
    Overfull depthLimit before after ∧ GroupTooDeep depthLimit (before ++ after) ∨
    ¬Overfull depthLimit before after ∧ ∃ last, Stuck (before ++ after) [] last ∧
      last.reason .endOfLine = .unbalancedParentheses := by
  have hdeeper : OneDeeper next machine := by
    cases step_eq_some_iff.mp h.step with
    | operand hkind => simp at hkind
    | closing => exact ⟨rfl, rfl⟩
    | operator hkind => exact absurd hkind (by decide)
  rcases hdeeper.run_up h.run with
    ⟨below, hbelow, hlast⟩ | ⟨inside, rest, full, hafter, hinside, hmode, hgroups⟩
  · have hreach : Machine.reach (before ++ after) = some below :=
      (h.reach_without (List.append_nil after).symm).trans hbelow
    have hmode : below.mode = .operator := hlast.mode
    have hgroups : below.groups = 1 := hlast.groups
    have hawaits := (recalls_of_reach hreach).awaits_of_operator hmode
    have hend : ¬below.Accepts := fun haccepts => by
      have := haccepts.2
      omega
    refine .inr ⟨?_, below, stuck_of_end hreach hend, by simp [reason, hmode, hgroups, hawaits]⟩
    rintro ⟨inside, ⟨rest, hrest⟩, hfull⟩
    rw [← hrest, List.append_assoc, ← List.append_assoc] at hreach
    have hroom := openGroups_lt_of_reach hreach
    omega
  · have hreach : Machine.reach (before ++ inside) = some full :=
      (h.reach_without hafter).trans hinside
    have hrecalls := recalls_of_reach hreach
    have hfull : openGroups (before ++ inside) = depthLimit := hrecalls.openGroups_eq.trans hgroups
    have hoverfull : Overfull depthLimit before after := ⟨inside, ⟨rest, by simp [hafter]⟩, hfull⟩
    refine .inl ⟨hoverfull, before ++ inside, rest, ?_, ?_, ?_, hfull⟩
    · rw [hafter, List.append_assoc]
    · exact viable_iff.mpr ⟨full, hreach⟩
    · exact hrecalls.mode.mp hmode

theorem rejects_without_operator (h : Passes before kind after machine next)
    (hkind : kind.isOperator = true) :
    Rejects (before ++ after)
      (if openGroups before = 0 then .unexpectedTrailingInput else .genericInvalid) := by
  have hrecalls := recalls_of_reach h.reach
  rw [hrecalls.openGroups_eq]
  cases step_eq_some_iff.mp h.step with
  | operand hword => rcases hword with rfl | rfl <;> exact absurd hkind (by decide)
  | opening => exact absurd hkind (by decide)
  | closing => exact absurd hkind (by decide)
  | @operator groups awaits =>
    obtain ⟨first, rest, rfl, hfirst⟩ := exists_operand h.run rfl
    by_cases hgroups : groups = 0
    · subst hgroups
      have hsentence : Sentence depthLimit before := sentence_iff.mpr ⟨_, h.reach, rfl, rfl⟩
      have htrailing : TrailingOperand depthLimit (before ++ first :: rest) :=
        ⟨before, first, rest, rfl, hsentence, hfirst⟩
      simpa using htrailing.rejects
    · have hawaits : awaits = false := hrecalls.awaits_of_operator rfl
      subst hawaits
      have hequal : first ≠ .equal := by
        rintro rfl
        exact absurd hfirst (by decide)
      have hstep : Machine.step 0 ⟨.operator, groups, false⟩ first = none := by
        cases first <;> first | rfl | exact absurd hfirst (by decide)
      have hreason : reason ⟨.operator, groups, false⟩ first = .genericInvalid := by
        cases first <;> first | exact absurd hfirst (by decide) | simp [reason, hgroups]
      rw [if_neg hgroups, ← hreason]
      exact rejects_at h.reach hequal hstep

theorem rejects_without_operand (h : Passes before kind after machine next)
    (hkind : kind = .number ∨ kind = .identifier) :
    Rejects (before ++ after)
      (if before.getLast?.any Kind.awaitsOperand then .incompleteExpression
        else .genericInvalid) := by
  have hrecalls := recalls_of_reach h.reach
  have hviable : Viable depthLimit before := viable_iff.mpr ⟨machine, h.reach⟩
  rw [← hrecalls.awaits]
  cases step_eq_some_iff.mp h.step with
  | opening => simp at hkind
  | closing => simp at hkind
  | operator hop => rcases hkind with rfl | rfl <;> exact absurd hop (by decide)
  | @operand groups awaits =>
    have hafter := no_operand h.run
    cases awaits with
    | true =>
      have hmissing : OperandMissing depthLimit (before ++ after) :=
        ⟨before, after, rfl, hviable, hrecalls.awaits.symm, hafter⟩
      simpa using hmissing.rejects
    | false =>
      refine rejects_unawaited h.reach ?_
      exact h.run

end Passes

/-- Without its target an assignment begins with `=`. -/
theorem rejects_without_target (rest : List Kind) : Rejects (.equal :: rest) .genericInvalid :=
  ⟨[], .equal :: rest, .start false, rfl, stuck_of_step reach_nil (by simp) rfl, rfl⟩

theorem rejects_without_equal (h : Grammar.Sentence depthLimit (.identifier :: .equal :: after)) :
    Rejects (.identifier :: after) .unexpectedTrailingInput := by
  obtain ⟨first, rest, rfl, hfirst⟩ := exists_operand (reach_of_sentence h) rfl
  have hname : Grammar.Sentence depthLimit [.identifier] := .expression (.ofTerm (.ofFactor .name))
  have htrailing : Grammar.TrailingOperand depthLimit (.identifier :: first :: rest) :=
    ⟨[.identifier], first, rest, rfl, hname, hfirst⟩
  exact htrailing.rejects

theorem rejects_lossReason (h : Grammar.Sentence depthLimit (before ++ kind :: after)) :
    Rejects (before ++ after) (Grammar.lossReason depthLimit before kind after) := by
  rcases passes_of_sentence h with ⟨rfl, rfl⟩ | ⟨rfl, rfl, hafter⟩ | ⟨machine, next, hpasses⟩
  · exact rejects_without_equal h
  · obtain ⟨rest, rfl⟩ := List.head?_eq_some_iff.mp hafter
    exact rejects_without_target rest
  · have hkind := inExpression_of_step hpasses.step
    cases kind
    case leftParen => exact hpasses.unmatched.rejects
    case rightParen =>
      rw [Grammar.lossReason]
      rcases hpasses.stays_open with ⟨hfull, hdeep⟩ | ⟨hroom, last, hstuck, hreason⟩
      · rw [if_pos hfull]
        exact hdeep.rejects
      · rw [if_neg hroom]
        exact ⟨before ++ after, [], last, (List.append_nil _).symm, hstuck, hreason⟩
    case number => exact hpasses.rejects_without_operand (.inl rfl)
    case identifier => exact hpasses.rejects_without_operand (.inr rfl)
    case plus | minus | star | slash => exact hpasses.rejects_without_operator rfl
    all_goals exact absurd hkind (by decide)

theorem stuck_at_end (h : Grammar.Sentence depthLimit (before ++ .rightParen :: after))
    (hroom : ¬Grammar.Overfull depthLimit before after) :
    ∃ last, Stuck (before ++ after) [] last := by
  rcases passes_of_sentence h with ⟨-, hkind⟩ | ⟨-, hkind, -⟩ | ⟨machine, next, hpasses⟩
  · exact nomatch hkind
  · exact nomatch hkind
  · rcases hpasses.stays_open with ⟨hfull, -⟩ | ⟨-, last, hstuck, -⟩
    · exact absurd hfull hroom
    · exact ⟨last, hstuck⟩

end Machine

open Grammar Machine

theorem validate_of_rejects {line : List Char} {reason : Reason} (h : firstUnrecognized line = none)
    (hrejects : Rejects (kinds line) reason) :
    (validate line).accepted = false ∧ (validate line).reason = some reason := by
  have hreason := (reason_eq_iff_rejects h reason).mpr hrejects
  rcases validate_cases line with ⟨machine, -, -, hvalidate⟩ | ⟨read, rest, machine, -, hvalidate⟩
  · rw [hvalidate] at hreason
    exact nomatch hreason
  · exact ⟨by rw [hvalidate]; rfl, hreason⟩

/-- An accepted line in which a space takes the place of a token is rejected, for the reason that
the token and its place tell. -/
theorem validate_blankIn (line : List Char) (before after : List Token) (token : Token)
    (haccepted : (validate line).accepted = true)
    (htokens : (Cursor.ofLine line).tokens = before ++ token :: after) :
    (validate (token.span.blankIn line)).accepted = false ∧
    (validate (token.span.blankIn line)).reason =
      some (lossReason 256 (before.map Token.kind) token.kind (after.map Token.kind)) ∧
    (token.kind = .rightParen →
      ¬Overfull 256 (before.map Token.kind) (after.map Token.kind) →
      (validate (token.span.blankIn line)).span =
        some (.single (token.span.blankIn line).length)) := by
  have hkinds := kinds_blankIn htokens
  have hsentence :
      Sentence depthLimit (before.map Token.kind ++ token.kind :: after.map Token.kind) := by
    have hline := sentence_of_accepted haccepted
    rwa [kinds, htokens, List.map_append, List.map_cons] at hline
  have hfirst : firstUnrecognized (token.span.blankIn line) = none := by
    refine firstUnrecognized_of_kinds fun hmem => ?_
    rw [hkinds] at hmem
    have hkind := hsentence.kinds .invalid (by
      rcases List.mem_append.mp hmem with hmem | hmem
      · exact List.mem_append_left _ hmem
      · exact List.mem_append_right _ (List.mem_cons_of_mem _ hmem))
    exact absurd hkind (by decide)
  have hrejects := rejects_lossReason hsentence
  rw [← hkinds] at hrejects
  obtain ⟨hrejected, hreason⟩ := validate_of_rejects hfirst hrejects
  refine ⟨hrejected, hreason, fun hclosing hroom => ?_⟩
  rw [hclosing] at hsentence
  obtain ⟨last, hstuck⟩ := stuck_at_end hsentence hroom
  rw [← hkinds] at hstuck
  rw [validate_of_stuck_at_end hstuck]
  rfl

/-- Without its `)` the group of `x=(1+2)*3` is still open at the end of the line. -/
theorem validate_blankIn_closing :
    ∃ before token after, (validate "x=(1+2)*3".toList).accepted = true ∧
      (Cursor.ofLine "x=(1+2)*3".toList).tokens = before ++ token :: after ∧
      token.kind = .rightParen ∧
      ¬Overfull 256 (before.map Token.kind) (after.map Token.kind) ∧
      token.span.blankIn "x=(1+2)*3".toList = "x=(1+2 *3".toList ∧
      (validate "x=(1+2 *3".toList).accepted = false ∧
      (validate "x=(1+2 *3".toList).reason = some .unbalancedParentheses ∧
      (validate "x=(1+2 *3".toList).span = some (.single 9) := by
  let line := "x=(1+2)*3".toList
  let before := (Cursor.ofLine line).tokens.take 6
  let after := (Cursor.ofLine line).tokens.drop 7
  let closing : Token := ⟨.rightParen, [')'], ⟨6, 7⟩⟩
  have haccepted : (validate line).accepted = true := by decide +kernel
  have htokens : (Cursor.ofLine line).tokens = before ++ closing :: after := by decide +kernel
  have hroom : ¬Overfull 256 (before.map Token.kind) (after.map Token.kind) := by decide +kernel
  have hblank : closing.span.blankIn line = "x=(1+2 *3".toList := by decide
  obtain ⟨hrejected, hreason, hspan⟩ := validate_blankIn line before after closing haccepted htokens
  have hend := hspan rfl hroom
  rw [hblank] at hrejected hreason hend
  refine ⟨before, closing, after, haccepted, htokens, rfl, hroom, hblank, hrejected, ?_, hend⟩
  rw [hreason]
  exact congrArg some (if_neg hroom)

end ArithLines
