import ArithLines.Descent
import ArithLines.Proofs.Tokens

/-! What a state of the descent still faces: the tokens to come, and the findings as they will be
once the rest of the line is read. Reading ahead changes neither, so that neither depends on how far
the scan is in front of the descent. -/

namespace ArithLines

namespace Findings

/-- Takes note of the first unrecognized token among these. -/
def recordFirst (findings : Findings) (tokens : List Token) : Findings :=
  match tokens.find? (·.kind = .invalid) with
  | none => findings
  | some token => findings.recordUnrecognized token.lexeme token.span

@[simp] theorem recordFirst_nil (findings : Findings) : findings.recordFirst [] = findings := rfl

theorem recordFirst_of_unrecognized {findings : Findings} (h : findings.unrecognized = true)
    (tokens : List Token) : findings.recordFirst tokens = findings := by
  rw [recordFirst]
  split
  · rfl
  · exact recordUnrecognized_of_unrecognized h ..

theorem recordFirst_cons (findings : Findings) (token : Token) (tokens : List Token) :
    findings.recordFirst (token :: tokens) =
      (if token.kind = .invalid then findings.recordUnrecognized token.lexeme token.span
        else findings).recordFirst tokens := by
  by_cases h : token.kind = .invalid
  · rw [if_pos h, recordFirst_of_unrecognized (recordUnrecognized_unrecognized ..)]
    simp [recordFirst, h]
  · simp [recordFirst, h]

@[simp] theorem recordFirst_awaitsOperand (findings : Findings) (tokens : List Token) :
    (findings.recordFirst tokens).awaitsOperand = findings.awaitsOperand := by
  unfold recordFirst recordUnrecognized
  split
  · rfl
  · split <;> rfl

/-- It does not matter whether the change is made before or after an unrecognized token is noted. -/
def Commutes (change : Findings → Findings) : Prop :=
  ∀ findings text span,
    (change findings).recordUnrecognized text span = change (findings.recordUnrecognized text span)

theorem Commutes.recordFirst {change : Findings → Findings} (h : Commutes change)
    (findings : Findings) (tokens : List Token) :
    (change findings).recordFirst tokens = change (findings.recordFirst tokens) := by
  unfold Findings.recordFirst
  split
  · rfl
  · exact h ..

theorem commutes_awaitsOperand (awaits : Bool) :
    Commutes fun findings => { findings with awaitsOperand := awaits } := by
  intro findings text span
  unfold recordUnrecognized
  split <;> rfl

theorem commutes_assignment : Commutes fun findings => { findings with assignment := true } := by
  intro findings text span
  unfold recordUnrecognized
  split <;> rfl

theorem commutes_complain (complaint : Complaint) : Commutes (·.complain complaint) := by
  intro findings text span
  by_cases h : findings.unrecognized = true
  · cases complaint <;> simp [recordUnrecognized, complain, h]
  · cases complaint <;> simp [recordUnrecognized, complain, h]

theorem commutes_failAt (blame : Span) : Commutes (·.failAt blame) := by
  intro findings text span
  by_cases h : findings.unrecognized = true
  · simp [recordUnrecognized, failAt, h]
  · simp [recordUnrecognized, failAt, h]

end Findings

namespace Reading

/-- The findings once the rest of the line is read. -/
def eventual (reading : Reading) : Findings :=
  reading.findings.recordFirst reading.cursor.tokens

theorem next_eventual (reading : Reading) : reading.next.2.eventual = reading.eventual := by
  unfold eventual
  rw [next_cursor, next_findings, Cursor.next_tokens]
  by_cases hkind : reading.cursor.next.1.kind = .endOfLine
  · rw [Cursor.tokens_of_endOfLine hkind, if_neg (by rw [hkind]; decide)]
    rfl
  · rw [Cursor.tokens_of_token hkind, Findings.recordFirst_cons]
    rfl

theorem drain_findings (reading : Reading) : reading.drain.findings = reading.eventual := by
  fun_induction drain reading with
  | case1 reading hkind =>
    rw [← next_eventual, eventual, next_cursor, Cursor.next_tokens,
      Cursor.tokens_of_endOfLine (by simpa using hkind)]
    rfl
  | case2 reading hkind ih => rw [ih, next_eventual]

end Reading

namespace Descent.State

def eventual (state : State) : Findings := state.reading.eventual

theorem eventual_of_read {state : State} (h : state.reading.cursor.tokens = []) :
    state.eventual = state.findings := by
  rw [eventual, Reading.eventual, h]
  rfl

theorem eventual_amend {change : Findings → Findings} (h : Findings.Commutes change)
    (state : State) : (state.amend change).eventual = change state.eventual :=
  h.recordFirst ..

@[simp] theorem eventual_peek (state : State) : state.peek.eventual = state.eventual := by
  rw [peek]
  split
  · rfl
  · exact Reading.next_eventual _

@[simp] theorem eventual_shift (state : State) : state.shift.eventual = state.eventual := by
  rw [shift]
  split
  · rfl
  · exact Reading.next_eventual _

@[simp] theorem eventual_advance (state : State) :
    state.advance.eventual =
      { state.eventual with awaitsOperand := state.current.kind.awaitsOperand } := by
  rw [advance]
  rw [eventual_amend (Findings.commutes_awaitsOperand _), eventual_shift]

@[simp] theorem eventual_halt (state : State) (complaint : Option Complaint) :
    (state.halt complaint).eventual = complaint.elim state.eventual state.eventual.complain := by
  cases complaint with
  | none => rfl
  | some complaint => exact eventual_amend (Findings.commutes_complain complaint) _

theorem eventual_awaitsOperand (state : State) :
    state.eventual.awaitsOperand = state.findings.awaitsOperand :=
  Findings.recordFirst_awaitsOperand ..

/-- The tokens of the line that are to come are `rest`, from the current one on. -/
structure Faces (line : List Char) (rest : List Token) (state : State) : Prop where
  current : state.current = rest.headD (.endOfLine line.length)
  following : state.lookahead = none ∧ state.reading.cursor.tokens = rest.tail ∨
    state.lookahead = some (rest.tail.headD (.endOfLine line.length)) ∧
      state.reading.cursor.tokens = rest.tail.tail
  place : state.reading.cursor.In line

theorem faces_ofReading {line : List Char} {reading : Reading} (h : reading.cursor.In line) :
    (ofReading reading).Faces line reading.cursor.tokens where
  current := Cursor.next_fst_eq h
  following := .inl ⟨rfl, by simp [ofReading, Cursor.next_tokens]⟩
  place := by simpa [ofReading] using h.next

namespace Faces

variable {line : List Char} {rest : List Token} {state : State}

theorem amend (h : state.Faces line rest) (change : Findings → Findings) :
    (state.amend change).Faces line rest := ⟨h.current, h.following, h.place⟩

theorem opened (h : state.Faces line rest) : state.opened.Faces line rest :=
  ⟨h.current, h.following, h.place⟩

theorem closed (h : state.Faces line rest) : state.closed.Faces line rest :=
  ⟨h.current, h.following, h.place⟩

theorem tokens_of_lookahead (h : state.Faces line rest) (hlook : state.lookahead = none) :
    state.reading.cursor.tokens = rest.tail :=
  (h.following.resolve_right (by simp [hlook])).2

theorem peek (h : state.Faces line rest) : state.peek.Faces line rest := by
  rw [State.peek]
  split
  · exact h
  · next hnone =>
    have htokens := h.tokens_of_lookahead hnone
    refine ⟨h.current, .inr ⟨?_, ?_⟩, by simpa using h.place.next⟩
    · rw [← htokens]
      exact congrArg some (Cursor.next_fst_eq h.place)
    · simp [Cursor.next_tokens, htokens]

theorem peek_lookahead (h : state.Faces line rest) :
    state.peek.lookahead = some (rest.tail.headD (.endOfLine line.length)) := by
  rw [State.peek]
  split
  · next token hsome =>
    rw [← (h.following.resolve_left (by simp [hsome])).1]
  · next hnone =>
    have htokens := h.tokens_of_lookahead hnone
    rw [← htokens]
    exact congrArg some (Cursor.next_fst_eq h.place)

theorem shift (h : state.Faces line rest) : state.shift.Faces line rest.tail := by
  rw [State.shift]
  split
  · next token hsome =>
    obtain ⟨hlook, htokens⟩ := h.following.resolve_left (by simp [hsome])
    exact ⟨Option.some.inj (hsome.symm.trans hlook), .inl ⟨rfl, htokens⟩, h.place⟩
  · next hnone =>
    have htokens := h.tokens_of_lookahead hnone
    refine ⟨?_, .inl ⟨hnone, ?_⟩, by simpa using h.place.next⟩
    · rw [← htokens]
      exact Cursor.next_fst_eq h.place
    · simp [Cursor.next_tokens, htokens]

theorem advance (h : state.Faces line rest) : state.advance.Faces line rest.tail :=
  h.shift.amend _

/-- A token that is not the end of the line is the first of those to come. -/
theorem eq_cons (h : state.Faces line rest) (hkind : state.current.kind ≠ .endOfLine) :
    rest = state.current :: rest.tail := by
  have hcurrent := h.current
  cases rest with
  | nil =>
    rw [hcurrent] at hkind
    exact absurd rfl hkind
  | cons token rest =>
    rw [hcurrent]
    rfl

theorem eq_nil (h : state.Faces line rest) (htokens : ∀ token ∈ rest, token.kind ≠ .endOfLine)
    (hkind : state.current.kind = .endOfLine) : rest = [] := by
  cases rest with
  | nil => rfl
  | cons token rest =>
    rw [h.current] at hkind
    exact absurd hkind (htokens token (by simp))

theorem tokens_of_nil (h : state.Faces line []) : state.reading.cursor.tokens = [] := by
  rcases h.following with ⟨-, h⟩ | ⟨-, h⟩ <;> exact h

end Faces

end Descent.State

end ArithLines
