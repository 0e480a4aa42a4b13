import ArithLines.Proofs.Acceptance

/-! Where a parse fails. The span that it blames is that of one token: what stands before the token
can be continued to a statement, and with the token it cannot. -/

namespace ArithLines

open Descent Grammar

theorem span_ne_of_before {first second : Token} (h : first.Before second)
    (hnonempty : first.span.start < first.span.stop) : first.span ≠ second.span := by
  intro hspan
  rw [Token.Before] at h
  rw [← hspan] at h
  omega

theorem span_ne_of_split {line : List Char} {before after : List Token} {token : Token}
    (h : tokens line = before ++ token :: after) :
    ∀ other ∈ before ++ after, other.span ≠ token.span := by
  have hpairwise := tokens_before line
  have hnonempty := fun token => @nonempty_of_mem_tokens line token
  rw [h] at hpairwise hnonempty
  obtain ⟨-, hrest, hacross⟩ := List.pairwise_append.mp hpairwise
  obtain ⟨hafter, -⟩ := List.pairwise_cons.mp hrest
  intro other hother
  rcases List.mem_append.mp hother with hmem | hmem
  · have hbefore := hacross other hmem token (by simp)
    exact span_ne_of_before hbefore (hnonempty other (by simp [hmem]))
  · exact (span_ne_of_before (hafter other hmem) (hnonempty token (by simp))).symm

namespace Stalls

variable {line : List Char} {read rest : List Token} {machine : Machine}

theorem exists_token (h : Stalls line read rest machine) :
    ∃ after, tokens line = read ++ rest.headD (.endOfLine line.length) :: after := by
  rw [tokens]
  rw [h.split]
  cases rest with
  | nil => exact ⟨[], by simp⟩
  | cons token rest => exact ⟨rest ++ [.endOfLine line.length], by simp⟩

/-- The token at which the machine stalls is blamed or stands before the one that is. -/
theorem before_unrecognized {first : Token} (h : Stalls line read rest machine)
    (hfirst : firstUnrecognized line = some first) :
    rest.headD (.endOfLine line.length) = first ∨
      (rest.headD (.endOfLine line.length)).Before first := by
  have hread : read.find? (·.kind = .invalid) = none := by
    rw [List.find?_eq_none]
    intro token htoken
    simpa using Machine.ne_invalid_of_reach h.stuck.reach token.kind (List.mem_map_of_mem htoken)
  have hmem : first ∈ rest := by
    rw [firstUnrecognized] at hfirst
    rw [h.split, List.find?_append, hread] at hfirst
    exact List.mem_of_find?_eq_some hfirst
  have hpairwise := Cursor.tokens_before (Cursor.in_ofLine line)
  rw [h.split] at hpairwise
  cases rest with
  | nil => simp at hmem
  | cons token rest =>
    obtain ⟨-, hrest, -⟩ := List.pairwise_append.mp hpairwise
    rcases List.mem_cons.mp hmem with rfl | hlater
    · exact .inl rfl
    · exact .inr ((List.pairwise_cons.mp hrest).1 first hlater)

theorem viable_prefixes (h : Stalls line read rest machine) :
    Viable depthLimit (read.map Token.kind) ∧
      ((rest.headD (.endOfLine line.length)).kind = .endOfLine →
        ¬Sentence depthLimit (read.map Token.kind)) ∧
      ((rest.headD (.endOfLine line.length)).kind ≠ .endOfLine →
        ¬Viable depthLimit ((read ++ [rest.headD (.endOfLine line.length)]).map Token.kind)) := by
  refine ⟨h.stuck.viable, ?_, ?_⟩
  · intro hend
    cases rest with
    | nil => simpa using h.stuck.not_sentence
    | cons token rest =>
      have hmem : token ∈ (Cursor.ofLine line).tokens := by simp [h.split]
      exact absurd hend (Cursor.kind_ne_endOfLine token hmem)
  · intro hkind
    cases rest with
    | nil => exact absurd rfl hkind
    | cons token rest =>
      rw [List.map_append]
      exact h.stuck.not_viable

end Stalls

/-- A parse that fails blames the span of exactly one token of the line, the end of the line among
them. The tokens before it begin some statement and with it they begin none; at the end of the line
they are none. The findings blame the first unrecognized token instead, if there is one, before
which the parse has not failed too late. -/
theorem parse_error_blames (line : List Char) (blame : Span)
    (h : (parse (.ofLine line)).1 = .error blame) :
    (∃ before token after, tokens line = before ++ token :: after ∧ token.span = blame ∧
      (∀ other ∈ before ++ after, other.span ≠ blame) ∧
      Viable 256 (before.map Token.kind) ∧
      (token.kind = .endOfLine → ¬Sentence 256 (before.map Token.kind)) ∧
      (token.kind ≠ .endOfLine → ¬Viable 256 ((before ++ [token]).map Token.kind))) ∧
    (parse (.ofLine line)).2.findings.blame =
      some ((firstUnrecognized line).elim blame Token.span) ∧
    ∀ first, firstUnrecognized line = some first →
      blame = first.span ∨ blame.stop ≤ first.span.start := by
  obtain ⟨read, rest, machine, hstalls, -, rfl, hfindings⟩ := parse_error (Prod.ext h rfl)
  refine ⟨?_, ?_, ?_⟩
  · obtain ⟨after, hsplit⟩ := hstalls.exists_token
    exact ⟨read, _, after, hsplit, rfl, span_ne_of_split hsplit, hstalls.viable_prefixes⟩
  · rw [hfindings]
    cases hfirst : firstUnrecognized line with
    | none => exact (Findings.ofHalt_of_none hfirst ..).2
    | some first => exact (Findings.ofHalt_of_some hfirst ..).2
  · intro first hfirst
    rcases hstalls.before_unrecognized hfirst with hblamed | hbefore
    · exact .inl (congrArg Token.span hblamed)
    · exact .inr hbefore

/-- In `()$` the parse fails at the parenthesis that closes, but `$` is what the findings blame. -/
theorem parse_error_blames_empty_group :
    (parse (.ofLine ['(', ')', '$'])).1 = .error ⟨1, 2⟩ ∧
    (∃ before token after, tokens ['(', ')', '$'] = before ++ token :: after ∧
      token.span = ⟨1, 2⟩ ∧ Viable 256 (before.map Token.kind)) ∧
    (parse (.ofLine ['(', ')', '$'])).2.findings.blame = some ⟨2, 3⟩ := by
  have hparse : (parse (.ofLine ['(', ')', '$'])).1 = .error ⟨1, 2⟩ := by decide +kernel
  obtain ⟨⟨before, token, after, hsplit, hspan, -, hviable, -⟩, hblame, -⟩ :=
    parse_error_blames ['(', ')', '$'] ⟨1, 2⟩ hparse
  refine ⟨hparse, ⟨before, token, after, hsplit, hspan, hviable⟩, hblame.trans ?_⟩
  decide +kernel

end ArithLines
