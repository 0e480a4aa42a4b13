import ArithLines.Proofs.Reasons
import ArithLines.Proofs.Spacing
import ArithLines.Proofs.Unrecognized

/-! What is left of a line that is cut. The cut goes through one token at most, so the rest of an
accepted line still begins a statement, unless a number is cut behind its point. Main statement: the
verdicts that the beginning of an accepted line can have. -/

namespace ArithLines

open Descent (depthLimit)

/-! ### Lexemes that are cut -/

namespace WholeLexeme

variable {part rest following : List Char}

/-- What is left of a lexeme that is cut is a lexeme where the text ends with the cut. -/
theorem beginning (h : WholeLexeme (part ++ rest) following) (hpart : part ≠ []) :
    WholeLexeme part [] := by
  obtain ⟨first, more, hlexeme, hfirst, hmore, -⟩ := h
  cases part with
  | nil => exact absurd rfl hpart
  | cons next part =>
    obtain ⟨rfl, rfl⟩ := List.cons.inj hlexeme
    exact ⟨next, part, rfl, hfirst, fun c hc => hmore c (List.mem_append_left rest hc), by simp⟩

end WholeLexeme

theorem AreDigits.of_append {part rest : List Char} (h : AreDigits (part ++ rest))
    (hpart : part ≠ []) : AreDigits part :=
  ⟨hpart, fun c hc => h.2 c (List.mem_append_left rest hc)⟩

/-- What is left of a number that is cut is a number, or ends with its point. -/
theorem IsNumber.of_append {part rest : List Char} (h : IsNumber (part ++ rest))
    (hpart : part ≠ []) : IsNumber part ∨ ∃ digits, part = digits ++ ['.'] ∧ AreDigits digits := by
  rcases h with h | ⟨whole, fraction, htext, hwhole, hfraction⟩
  · exact .inl (.inl (h.of_append hpart))
  · rcases List.append_eq_append_iff.mp htext with ⟨more, rfl, -⟩ | ⟨more, rfl, hmore⟩
    · exact .inl (.inl (hwhole.of_append hpart))
    · cases more with
      | nil =>
        rw [List.append_nil]
        exact .inl (.inl hwhole)
      | cons point more =>
        obtain ⟨rfl, rfl⟩ := List.cons.inj hmore
        by_cases hmore : more = []
        · subst hmore
          exact .inr ⟨whole, rfl, hwhole⟩
        · exact .inl (.inr ⟨whole, more, rfl, hwhole, hfraction.of_append hmore⟩)

/-- What is left of a token that is cut has its kind, unless it is digits and a point. -/
theorem Kind.ofLexeme_of_append {part rest : List Char} (hpart : part ≠ [])
    (h : ofLexeme (part ++ rest) ≠ .invalid) :
    ofLexeme part = ofLexeme (part ++ rest) ∨
      ofLexeme part = .invalid ∧ ∃ digits, part = digits ++ ['.'] ∧ AreDigits digits := by
  cases part with
  | nil => exact absurd rfl hpart
  | cons first more =>
    simp only [ofLexeme, List.cons_append, List.head?_cons] at h ⊢
    cases hmark : Kind.ofPunctuation? first with
    | some kind => exact .inl rfl
    | none =>
      simp only [hmark] at h
      by_cases hnumber : isNumberChar first = true
      · simp only [hnumber, if_true] at h ⊢
        have hnumeral : isNumeral (first :: (more ++ rest)) = true := by
          by_contra hnot
          exact h (if_neg hnot)
        rw [if_pos hnumeral]
        rw [← List.cons_append] at hnumeral
        rcases (isNumber_of_isNumeral hnumeral).of_append hpart with hnumber | hpoint
        · exact .inl (if_pos hnumber.isNumeral)
        · by_cases hwhole : isNumeral (first :: more) = true
          · exact .inl (if_pos hwhole)
          · exact .inr ⟨if_neg hwhole, hpoint⟩
      · exact .inl (by simp only [hnumber, Bool.false_eq_true, if_false])

/-! ### Texts that are cut -/

/-- A text that is cut keeps its tokens up to the cut. One of them may be cut itself. -/
theorem Layout.of_append {position : Nat} {kept rest : List Char} {tokens : List Token}
    (h : Layout position (kept ++ rest) tokens) :
    (∃ before after, tokens = before ++ after ∧ Layout position kept before) ∨
    ∃ before token after head part more, tokens = before ++ token :: after ∧
      token.kind = .ofLexeme token.lexeme ∧ token.lexeme = part ++ more ∧ part ≠ [] ∧
      kept = head ++ part ∧
      Layout position kept (before ++ [⟨.ofLexeme part, part,
        ⟨position + head.length, position + head.length + part.length⟩⟩]) := by
  generalize htext : kept ++ rest = text at h
  induction h generalizing kept with
  | space hspace =>
    subst htext
    exact .inl ⟨[], [], rfl, .space fun c hc => hspace c (List.mem_append_left rest hc)⟩
  | @token position gap lexeme following tokens hgap hwhole hlayout ih =>
    rcases List.append_eq_append_iff.mp htext with ⟨more, rfl, -⟩ | ⟨inner, rfl, hinner⟩
    · exact .inl ⟨[], _, rfl, .space fun c hc => hgap c (List.mem_append_left more hc)⟩
    rcases List.append_eq_append_iff.mp hinner.symm with ⟨more, rfl, -⟩ | ⟨tail, rfl, htail⟩
    · by_cases hpart : inner = []
      · subst hpart
        rw [List.append_nil]
        exact .inl ⟨[], _, rfl, .space hgap⟩
      · have hlast : Layout (position + gap.length + inner.length) [] [] := .space (by simp)
        have hcut := Layout.token hgap (hwhole.beginning hpart) hlast
        rw [List.append_nil] at hcut
        exact .inr ⟨[], _, tokens, gap, inner, more, rfl, rfl, rfl, hpart, rfl, hcut⟩
    · subst htail
      rcases ih rfl with ⟨before, after, rfl, hkept⟩ |
        ⟨before, token, after, head, part, more, rfl, hkind, hlexeme, hpart, rfl, hkept⟩
      · exact .inl ⟨_ :: before, after, rfl, .token hgap hwhole.of_append hkept⟩
      · refine .inr ⟨_ :: before, token, after, gap ++ (lexeme ++ head), part, more, rfl, hkind,
          hlexeme, hpart, by simp, ?_⟩
        have hlength : position + (gap ++ (lexeme ++ head)).length =
            position + gap.length + lexeme.length + head.length := by
          simp only [List.length_append]
          omega
        rw [hlength]
        exact .token hgap hwhole.of_append hkept

/-- The kinds of the beginning of a line begin the kinds of the line, unless a number is cut behind
its point. -/
theorem kinds_of_append {kept rest : List Char} (h : .invalid ∉ kinds (kept ++ rest)) :
    kinds kept <+: kinds (kept ++ rest) ∨
    ∃ before digits, before.map Token.kind <+: kinds (kept ++ rest) ∧ AreDigits digits ∧
      digits ++ ['.'] <:+ kept ∧
      (Cursor.ofLine kept).tokens = before ++ [⟨.invalid, digits ++ ['.'],
        ⟨kept.length - (digits.length + 1), kept.length⟩⟩] := by
  rcases (Layout.of_line (kept ++ rest)).of_append with ⟨before, after, htokens, hkept⟩ |
    ⟨before, token, after, head, part, more, htokens, hkind, hlexeme, hpart, hsplit, hkept⟩
  · refine .inl ⟨after.map Token.kind, ?_⟩
    rw [kinds, Cursor.ofLine, hkept.tokens_eq, kinds, htokens, List.map_append]
  · have hvalid : Kind.ofLexeme (part ++ more) ≠ .invalid := by
      rw [← hlexeme, ← hkind]
      intro hinvalid
      apply h
      rw [kinds, htokens, ← hinvalid]
      simp
    rcases Kind.ofLexeme_of_append hpart hvalid with hsame | ⟨hinvalid, digits, rfl, hdigits⟩
    · refine .inl ⟨after.map Token.kind, ?_⟩
      rw [kinds, Cursor.ofLine, hkept.tokens_eq, kinds, htokens, hsame, ← hlexeme, ← hkind]
      simp
    · refine .inr ⟨before, digits, ?_, hdigits, ⟨head, hsplit.symm⟩, ?_⟩
      · rw [kinds, htokens, List.map_append]
        exact List.prefix_append _ _
      · have hlength : kept.length = head.length + (digits.length + 1) := by
          rw [hsplit]
          simp
        rw [Cursor.ofLine, hkept.tokens_eq, hinvalid]
        simp only [List.length_append, List.length_singleton, Nat.zero_add, hlength,
          Nat.add_sub_cancel]

/-! ### Verdicts on lines that are cut -/

namespace Machine

variable {machine : Machine} {kinds : List Kind}

/-- A line that may be continued lacks an operand or the end of a group, or all of its tokens. -/
theorem reason_at_end (h : reach kinds = some machine) (hend : ¬machine.Accepts) :
    machine.reason .endOfLine = .incompleteExpression ∨
    machine.reason .endOfLine = .unbalancedParentheses ∨
    machine.reason .endOfLine = .genericInvalid ∧ kinds = [] := by
  cases hmode : machine.mode with
  | operand =>
    by_cases hawaits : machine.awaits = true
    · exact .inl (by simp [reason, hmode, hawaits])
    by_cases hgroups : machine.groups = 0
    · have hkinds := eq_nil_of_operand h hmode (by simpa using hawaits) hgroups
      exact .inr (.inr ⟨by simp [reason, hmode, hawaits, hgroups], hkinds⟩)
    · have hopen : 0 < machine.groups := Nat.pos_of_ne_zero hgroups
      exact .inr (.inl (by simp [reason, hmode, hawaits, hopen]))
  | operator =>
    have hawaits := (recalls_of_reach h).awaits_of_operator hmode
    have hgroups : machine.groups ≠ 0 := fun hgroups => hend ⟨hmode, hgroups⟩
    exact .inr (.inl (by simp [reason, hmode, hawaits, hgroups]))

end Machine

open Grammar

/-- The verdicts on a text that is cut short: it is accepted, or an operand or the end of a group is
missing where it ends, or it ends with digits and a point, which are no number, or it has no token
at all. -/
inductive CutShort (text : List Char) : Verdict → Prop
  | accepted : CutShort text .accept
  | operand : CutShort text (.reject .incompleteExpression (some ⟨text.length, text.length + 1⟩))
  | group : CutShort text (.reject .unbalancedParentheses (some ⟨text.length, text.length + 1⟩))
  | point {digits : List Char} :
      digits ≠ [] → (∀ c ∈ digits, c.isDigit = true) → digits ++ ['.'] <:+ text →
      CutShort text (.reject (.unrecognizedToken (digits ++ ['.']))
        (some ⟨text.length - (digits.length + 1), text.length⟩))
  | empty :
      (Cursor.ofLine text).tokens = [] →
      CutShort text (.reject .genericInvalid (some ⟨text.length, text.length + 1⟩))

theorem CutShort.reason_ne {text : List Char} {verdict : Verdict} (h : CutShort text verdict) :
    ∀ reason ∈ [Reason.nestingTooDeep, .invalidAssignmentTarget, .unexpectedTrailingInput],
      verdict.reason ≠ some reason := by
  cases h <;> simp [Verdict.accept, Verdict.reject]

/-- A line that begins a statement is one, or lacks at its end what would make it one. -/
theorem cutShort_of_viable {line : List Char} (h : Viable depthLimit (kinds line)) :
    CutShort line (validate line) := by
  obtain ⟨machine, hreach⟩ := viable_iff.mp h
  by_cases haccepts : machine.Accepts
  · rw [validate_of_accepting hreach haccepts]
    exact .accepted
  · rw [validate_of_stuck_at_end (Machine.stuck_of_end hreach haccepts)]
    rcases Machine.reason_at_end hreach haccepts with hreason | hreason | ⟨hreason, hnone⟩
    · rw [hreason]
      exact .operand
    · rw [hreason]
      exact .group
    · rw [hreason]
      exact .empty (List.map_eq_nil_iff.mp hnone)

/-- An accepted line that is cut anywhere has the verdict of one that is cut short, so that nothing is
found in it that the cut has not brought about. -/
theorem cutShort_of_accepted (line kept : List Char) (haccepted : (validate line).accepted = true)
    (hbeginning : kept <+: line) :
    CutShort kept (validate kept) ∧
    ∀ reason ∈ [Reason.nestingTooDeep, .invalidAssignmentTarget, .unexpectedTrailingInput],
      (validate kept).reason ≠ some reason := by
  have hcut : CutShort kept (validate kept) := by
    obtain ⟨rest, rfl⟩ := hbeginning
    have hsentence := sentence_of_accepted haccepted
    have hvalid : .invalid ∉ kinds (kept ++ rest) := fun hmem =>
      absurd (hsentence.kinds .invalid hmem) (by decide)
    rcases kinds_of_append hvalid with
      ⟨more, hmore⟩ | ⟨before, digits, hbefore, hdigits, hend, htokens⟩
    · rw [← hmore] at hsentence
      exact cutShort_of_viable hsentence.viable.of_append
    · have hnone : before.find? (·.kind = .invalid) = none := by
        rw [List.find?_eq_none]
        intro token htoken
        have hmem := hbefore.subset (List.mem_map_of_mem htoken)
        simpa using fun hinvalid : token.kind = .invalid => hvalid (hinvalid ▸ hmem)
      have hfirst : firstUnrecognized kept = some ⟨.invalid, digits ++ ['.'],
          ⟨kept.length - (digits.length + 1), kept.length⟩⟩ := by
        rw [firstUnrecognized, htokens, List.find?_append, hnone]
        rfl
      rw [validate_of_unrecognized hfirst]
      exact .point hdigits.1 hdigits.2 hend
  exact ⟨hcut, hcut.reason_ne⟩

/-- Cut behind its point, `2.5` is no number any more. -/
theorem cutShort_of_accepted_point :
    (validate "x=(1+2.5)*3".toList).accepted = true ∧
    "x=(1+2.".toList <+: "x=(1+2.5)*3".toList ∧
    CutShort "x=(1+2.".toList (validate "x=(1+2.".toList) ∧
    validate "x=(1+2.".toList = .reject (.unrecognizedToken ['2', '.']) (some ⟨5, 7⟩) := by
  have haccepted : (validate "x=(1+2.5)*3".toList).accepted = true := by decide +kernel
  have hbeginning : "x=(1+2.".toList <+: "x=(1+2.5)*3".toList := ⟨"5)*3".toList, rfl⟩
  obtain ⟨hcut, -⟩ := cutShort_of_accepted "x=(1+2.5)*3".toList "x=(1+2.".toList haccepted hbeginning
  exact ⟨haccepted, hbeginning, hcut, by decide +kernel⟩

end ArithLines
