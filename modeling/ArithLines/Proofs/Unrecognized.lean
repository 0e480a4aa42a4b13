import ArithLines.Proofs.Acceptance

/-! Unrecognized tokens outrank everything else that may be wrong with a line: the first of them is
named and blamed, wherever the descent stops. -/

namespace ArithLines

theorem stands_of_firstUnrecognized {line : List Char} {first : Token}
    (h : firstUnrecognized line = some first) : first.Stands line :=
  (Cursor.tokens_stand (Cursor.in_ofLine line) first (List.mem_of_find?_eq_some h)).1

theorem validate_of_unrecognized {line : List Char} {first : Token}
    (h : firstUnrecognized line = some first) :
    validate line = .reject (.unrecognizedToken first.lexeme) (some first.span) := by
  rcases validate_cases line with ⟨machine, hreach, -⟩ | ⟨read, rest, machine, -, hvalidate⟩
  · rw [firstUnrecognized_of_reach hreach] at h
    simp at h
  · obtain ⟨hreason, hblame⟩ :=
      Findings.ofHalt_of_some h machine (rest.headD (.endOfLine line.length))
    rw [hvalidate, hreason, hblame]

theorem reason_ne_unrecognized {line : List Char} (h : firstUnrecognized line = none)
    (text : List Char) : (validate line).reason ≠ some (.unrecognizedToken text) := by
  rcases validate_cases line with ⟨machine, -, -, hvalidate⟩ | ⟨read, rest, machine, -, hvalidate⟩
  · simp [hvalidate, Verdict.accept]
  · obtain ⟨hreason, -⟩ :=
      Findings.ofHalt_of_none h machine (rest.headD (.endOfLine line.length))
    rw [hvalidate, hreason]
    simp only [Verdict.reject, ne_eq, Option.some.injEq, Machine.reason]
    repeat' split
    all_goals simp

/-- The reason is an unrecognized token if and only if the line has one. It is then the first, whose
span is blamed and covers its text, and a character that no token has makes one. -/
theorem reason_unrecognized_iff (line : List Char) :
    (∀ text, (validate line).reason = some (.unrecognizedToken text) ↔
      ∃ first, (tokens line).find? (·.kind = .invalid) = some first ∧ first.lexeme = text) ∧
    (∀ first, (tokens line).find? (·.kind = .invalid) = some first →
      (validate line).span = some first.span) ∧
    (∀ text span, (validate line).reason = some (.unrecognizedToken text) →
      (validate line).span = some span →
        span.textIn line = text ∧ span.stop ≤ line.length) ∧
    (∀ c ∈ line, isKnown c = false →
      (validate line).accepted = false ∧
        ∃ text, (validate line).reason = some (.unrecognizedToken text)) := by
  rw [find?_tokens]
  cases hfirst : firstUnrecognized line with
  | none =>
    refine ⟨fun text => ⟨fun h => absurd h (reason_ne_unrecognized hfirst text), nofun⟩, nofun,
      fun text _ h => absurd h (reason_ne_unrecognized hfirst text), fun c hc hunknown => ?_⟩
    obtain ⟨token, htoken, hinvalid⟩ :=
      (Cursor.ofLine line).exists_invalid_of_unknown hunknown hc
    exact absurd hinvalid (by simpa using List.find?_eq_none.mp hfirst token htoken)
  | some first =>
    rw [validate_of_unrecognized hfirst]
    refine ⟨fun text => ?_, fun _ h => ?_, fun text span hreason hspan => ?_,
      fun _ _ _ => ⟨rfl, _, rfl⟩⟩
    · simp [Verdict.reject]
    · rw [← Option.some.inj h]
      rfl
    · simp only [Verdict.reject, Option.some.injEq, Reason.unrecognizedToken.injEq] at hreason hspan
      have hstands := stands_of_firstUnrecognized hfirst
      rw [← hreason, ← hspan]
      exact ⟨hstands.covers, hstands.inside⟩

end ArithLines
