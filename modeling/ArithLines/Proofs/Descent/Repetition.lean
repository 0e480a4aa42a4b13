import ArithLines.Proofs.Descent.Ending
import Mathlib.Data.List.Basic

/-! Parses one after the other from the state in which the one before ended. The first leaves at
most the token at which it failed, so that the second may succeed where the first did not. After it
no operand can begin, and each parse from then on fails at the same token with the same findings. -/

namespace ArithLines.Descent

namespace State

section Rest

variable {state : State} (h : state.reading.cursor.rest = [])
include h

theorem peek_rest : state.peek.reading.cursor.rest = [] := by
  rw [peek]
  split
  · exact h
  · rw [Reading.next_cursor]
    exact Cursor.next_rest h

theorem advance_rest : state.advance.reading.cursor.rest = [] := by
  have hshift : state.shift.reading.cursor.rest = [] := by
    rw [shift]
    split
    · exact h
    · rw [Reading.next_cursor]
      exact Cursor.next_rest h
  exact hshift

theorem consume_rest : state.consume.reading.cursor.rest = [] := by
  rw [consume]
  split <;> exact advance_rest h

theorem expressionStart_rest : state.expressionStart.reading.cursor.rest = [] := by
  rw [expressionStart]
  split
  · split
    · exact advance_rest (advance_rest (peek_rest h))
    · exact peek_rest h
  · exact h

end Rest

end State

theorem Path.rest {floor : Nat} {mode mode' : Mode} {state last : State} {read : List Token}
    (h : Path floor mode state read mode' last) (hrest : state.reading.cursor.rest = []) :
    last.reading.cursor.rest = [] := by
  induction h with
  | nil => exact hrest
  | cons _ _ ih => exact ih (State.consume_rest hrest)

namespace State

/-- The tokens that are not consumed yet, without the end of the line. -/
def unread (state : State) : List Token :=
  (state.current :: (state.lookahead.toList ++ state.reading.cursor.tokens)).filter
    (·.kind ≠ .endOfLine)

theorem Faces.unread {line : List Char} {rest : List Token} {state : State}
    (h : state.Faces line rest) (hproper : ∀ token ∈ rest, token.kind ≠ .endOfLine) :
    state.unread = rest := by
  have hfilter : rest.filter (·.kind ≠ .endOfLine) = rest := by simpa using hproper
  rw [State.unread, h.current]
  rcases h.following with ⟨hlook, htokens⟩ | ⟨hlook, htokens⟩ <;> rw [hlook, htokens]
  · cases rest with
    | nil => rfl
    | cons token rest => exact hfilter
  · cases rest with
    | nil => rfl
    | cons token rest =>
      cases rest with
      | nil => simpa [Token.endOfLine, List.filter_cons] using hproper
      | cons second rest => exact hfilter

def afterParses (state : State) : Nat → State
  | 0 => state
  | count + 1 => (parse (state.afterParses count)).2

/-- Between two parses nothing is read ahead, and `rest` is to come. -/
structure Rests (line : List Char) (rest : List Token) (state : State) : Prop where
  faces : state.Faces line rest
  proper : ∀ token ∈ rest, token.kind ≠ .endOfLine
  lookahead : state.lookahead = none

theorem rests_ofLine (line : List Char) (earlier : Findings) :
    (ofReading (.ofLine line earlier)).Rests line (Cursor.ofLine line).tokens where
  faces := by
    have hplace : (Reading.ofLine line earlier).cursor.In line := Cursor.in_ofLine line
    exact faces_ofReading hplace
  proper := Cursor.kind_ne_endOfLine
  lookahead := rfl

namespace Rests

variable {line : List Char} {rest : List Token} {state : State}

theorem tokens (h : state.Rests line rest) : state.reading.cursor.tokens = rest.tail :=
  h.faces.tokens_of_lookahead h.lookahead

theorem unread (h : state.Rests line rest) : state.unread = rest := h.faces.unread h.proper

theorem read (h : state.Rests line rest) (hlength : rest.length ≤ 1) :
    state.reading.cursor.tokens = [] := by
  rw [h.tokens]
  exact List.length_eq_zero_iff.mp (by rw [List.length_tail]; omega)

/-- A parse leaves no more than the token at which it fails. -/
theorem parse (h : state.Rests line rest) :
    ∃ left, left.Sublist rest ∧ left.length ≤ 1 ∧ (parse state).2.Rests line left := by
  have hended := ended_parse state h.lookahead
  obtain ⟨body, hbody, hstart⟩ := h.faces.exists_expressionStart
  generalize Descent.parse state = outcome at hended
  cases hended with
  | @parsed _ read last hpath _ hend hlook =>
    obtain ⟨rest', rfl, hlast⟩ := hpath.faces hstart
    have hproper : ∀ token ∈ rest', token.kind ≠ .endOfLine := fun token htoken =>
      h.proper token (hbody.subset (List.mem_append_right _ htoken))
    obtain rfl := hlast.eq_nil hproper hend
    exact ⟨[], List.nil_sublist _, Nat.zero_le _, hlast, by simp, hlook⟩
  | @failed mode read place hpath _ _ hlook =>
    obtain ⟨rest', rfl, hplace⟩ := hpath.faces hstart
    have hsub : (rest'.take 1).Sublist rest :=
      (List.take_sublist ..).trans ((List.sublist_append_right ..).trans hbody.sublist)
    refine ⟨rest'.take 1, hsub, List.length_take_le .., ⟨?_, .inl ⟨?_, ?_⟩, ?_⟩, ?_, ?_⟩
    · rw [failed_current, hplace.current]
      cases rest' <;> rfl
    · rw [failed_lookahead, hlook]
    · rw [Cursor.tokens_of_rest (failed_rest ..)]
      cases rest' <;> rfl
    · exact Reading.drain_in (by cases place.lineComplaint state.depth mode <;> exact hplace.place)
    · exact fun token htoken => h.proper token (hsub.subset htoken)
    · rw [failed_lookahead, hlook]

/-- After one token at most the parse ends where no operand can begin. -/
theorem blocked_parse (h : state.Rests line rest) (hlength : rest.length ≤ 1) :
    (Descent.parse state).2.Blocked := by
  have hended := ended_parse state h.lookahead
  obtain ⟨body, hbody, hstart⟩ := h.faces.exists_expressionStart
  generalize Descent.parse state = outcome at hended
  cases hended with
  | parsed _ _ hend => exact blocked_of_endOfLine hend
  | @failed mode read place hpath hstuck _ _ =>
    have hplace : place.Blocked := by
      cases mode with
      | operand => exact blocked_of_floor hstuck
      | operator =>
        -- The token has been consumed, since an operand comes first
        obtain ⟨rest', rfl, hfaces⟩ := hpath.faces hstart
        have hle := hbody.length_le
        obtain rfl : rest' = [] := by
          cases hpath with
          | cons =>
            rw [List.length_append, List.length_cons] at hle
            exact List.length_eq_zero_iff.mp (by omega)
        exact blocked_of_endOfLine (by rw [hfaces.current]; rfl)
    exact hplace.congr (by rw [failed_current]) (failed_depth ..)

end Rests

/-- No operand can begin, and nothing is left to read. -/
structure Settled (state : State) : Prop where
  lookahead : state.lookahead = none
  read : state.reading.cursor.tokens = []
  blocked : state.Blocked

theorem Settled.parse {state : State} (h : state.Settled) :
    (Descent.parse state).1 = .error state.current.span ∧ (Descent.parse state).2.Settled ∧
      (Descent.parse state).2.current = state.current ∧
      (Descent.parse state).2.complaint .operand = state.complaint .operand ∧
      (Descent.parse state).2.findings =
        state.findings.failWith (state.complaint .operand) state.current.span := by
  rw [parse_of_blocked h.lookahead h.blocked]
  refine ⟨rfl, ⟨?_, ?_, ?_⟩, failed_current .., ?_, ?_⟩
  · rw [failed_lookahead, h.lookahead]
  · exact Cursor.tokens_of_rest (failed_rest ..)
  · exact h.blocked.congr (by rw [failed_current]) (failed_depth ..)
  · simp only [complaint, missingOperand, failed_current, failed_depth]
  · rw [failed_findings, eventual_of_read h.read]

/-- From here on every parse fails at the same token, and all but the first leave the findings. -/
theorem Settled.afterParses {state : State} {first count : Nat}
    (h : (state.afterParses first).Settled) (hle : first ≤ count) :
    (state.afterParses count).Settled ∧
      (state.afterParses count).current = (state.afterParses first).current ∧
      (state.afterParses (count + 1)).findings = (state.afterParses (first + 1)).findings := by
  induction hle with
  | refl => exact ⟨h, rfl, rfl⟩
  | @step count _ ih =>
    obtain ⟨hsettled, hcurrent, hfindings⟩ := ih
    obtain ⟨-, hnext, hsame, hcomplaint, hfailed⟩ := hsettled.parse
    obtain ⟨-, -, -, -, hagain⟩ := hnext.parse
    refine ⟨hnext, hsame.trans hcurrent, ?_⟩
    rw [hsame, hcomplaint, hfailed, Findings.failWith_failWith, ← hfailed] at hagain
    exact hagain.trans hfindings

namespace Rests

variable {line : List Char} {rest : List Token} {state : State}

theorem settled_parse (h : state.Rests line rest) (hlength : rest.length ≤ 1) :
    (Descent.parse state).2.Settled := by
  obtain ⟨left, -, hleft, hrests⟩ := h.parse
  exact ⟨hrests.lookahead, hrests.read hleft, h.blocked_parse hlength⟩

theorem settled_of_ok {parsed : Statement} (h : state.Rests line rest)
    (hok : (Descent.parse state).1 = .ok parsed) : (Descent.parse state).2.Settled := by
  obtain ⟨left, -, hleft, hrests⟩ := h.parse
  have hended := ended_parse state h.lookahead
  refine ⟨hrests.lookahead, hrests.read hleft, ?_⟩
  generalize Descent.parse state = outcome at hended hok
  cases hended with
  | parsed _ _ hend => exact blocked_of_endOfLine hend
  | failed => simp at hok

theorem parse_unrecognized (h : state.Rests line rest) (hlength : rest.length ≤ 1) :
    (Descent.parse state).2.findings.unrecognized = state.findings.unrecognized ∧
      (Descent.parse state).2.findings.unrecognizedText = state.findings.unrecognizedText := by
  obtain ⟨left, -, hleft, hrests⟩ := h.parse
  obtain ⟨hok, herror⟩ := parse_unflagged h.lookahead
  rw [eventual_of_read (h.read hlength), eventual_of_read (hrests.read hleft)] at hok
  rw [eventual_of_read (h.read hlength)] at herror
  cases hresult : (Descent.parse state).1 with
  | ok parsed => exact Findings.recorded_of_unflagged (hok parsed hresult)
  | error blame =>
    have hsame : (Descent.parse state).2.findings.unflagged =
        (state.findings.failAt blame).unflagged := herror blame hresult
    have hrecorded := Findings.recorded_of_unflagged hsame
    exact hrecorded

theorem of_error {blame : Span} (h : state.Rests line rest)
    (herror : (Descent.parse state).1 = .error blame) :
    (Descent.parse state).2.current.span = blame ∧
      (Descent.parse state).2.reading.cursor.rest = [] := by
  have hended := ended_parse state h.lookahead
  generalize Descent.parse state = outcome at hended herror
  cases hended with
  | parsed => simp at herror
  | failed =>
    rw [failed_current]
    exact ⟨Except.error.inj herror, failed_rest ..⟩

/-- After the line is read to its end no parse reads anything. -/
theorem parse_rest (h : state.Rests line rest) (hrest : state.reading.cursor.rest = []) :
    (Descent.parse state).2.reading.cursor.rest = [] := by
  have hended := ended_parse state h.lookahead
  generalize Descent.parse state = outcome at hended
  cases hended with
  | parsed hpath => exact hpath.rest (expressionStart_rest hrest)
  | failed => exact failed_rest ..

theorem afterParses (h : state.Rests line rest) (count : Nat) :
    ∃ left, (0 < count → left.length ≤ 1) ∧ (state.afterParses count).Rests line left := by
  induction count with
  | zero => exact ⟨rest, by simp, h⟩
  | succ count ih =>
    obtain ⟨left, -, hleft⟩ := ih
    obtain ⟨left', -, hlength, hrests⟩ := hleft.parse
    exact ⟨left', fun _ => hlength, hrests⟩

/-- What is consumed does not come back. -/
theorem unread_sublist (h : state.Rests line rest) {first count : Nat} (hle : first ≤ count) :
    (state.afterParses count).unread.Sublist (state.afterParses first).unread := by
  induction hle with
  | refl => exact .refl _
  | @step count _ ih =>
    obtain ⟨left, -, hleft⟩ := h.afterParses count
    obtain ⟨left', hsub, -, hrests⟩ := hleft.parse
    rw [hleft.unread] at ih
    rw [State.afterParses, hrests.unread]
    exact hsub.trans ih

theorem afterParses_rest (h : state.Rests line rest) {first count : Nat} (hle : first ≤ count)
    (hrest : (state.afterParses first).reading.cursor.rest = []) :
    (state.afterParses count).reading.cursor.rest = [] := by
  induction hle with
  | refl => exact hrest
  | @step count _ ih =>
    obtain ⟨left, -, hleft⟩ := h.afterParses count
    exact hleft.parse_rest ih

/-- After a parse that fails, no more than the token at which it failed is ever to come. -/
theorem unread_after_error {count later : Nat} {blame : Span} (h : state.Rests line rest)
    (herror : (Descent.parse (state.afterParses count)).1 = .error blame) (hlater : count < later) :
    (state.afterParses later).unread = [] ∨
      ∃ token, token.span = blame ∧ (state.afterParses later).unread = [token] := by
  obtain ⟨left, -, hleft⟩ := h.afterParses count
  obtain ⟨hspan, -⟩ := hleft.of_error herror
  obtain ⟨left', -, hlength, hnext⟩ := hleft.parse
  have hsub := h.unread_sublist hlater
  rw [State.afterParses, hnext.unread] at hsub
  rw [hnext.faces.current] at hspan
  match left', hlength with
  | [], _ => exact .inl (List.sublist_nil.mp hsub)
  | [token], _ =>
    rcases List.sublist_singleton.mp hsub with hnone | hone
    · exact .inl hnone
    · exact .inr ⟨token, hspan, hone⟩

theorem afterParses_unrecognized (h : state.Rests line rest) {count : Nat} (hpos : 1 ≤ count) :
    (state.afterParses count).findings.unrecognized = (state.afterParses 1).findings.unrecognized ∧
      (state.afterParses count).findings.unrecognizedText =
        (state.afterParses 1).findings.unrecognizedText := by
  induction hpos with
  | refl => exact ⟨rfl, rfl⟩
  | @step count hpos ih =>
    obtain ⟨left, hlength, hleft⟩ := h.afterParses count
    obtain ⟨hflag, htext⟩ := hleft.parse_unrecognized (hlength hpos)
    exact ⟨hflag.trans ih.1, htext.trans ih.2⟩

end Rests

end State

/-- The state after so many parses of a line that begin with the findings `earlier`. -/
def parsing (earlier : Findings) (line : List Char) (count : Nat) : State :=
  (State.ofReading (.ofLine line earlier)).afterParses count

/-- Of the parses of a line one after the other no more than one succeeds. Once one has failed the
line is read to its end, and no more than the token at which it failed is to come. What is consumed
does not come back, and after the first parse no unrecognized token is recorded. From the third
parse on each fails at the same place and leaves the findings that the third left. -/
theorem parses_settle (earlier : Findings) (line : List Char) :
    (∀ first second parsed parsed', (parse (parsing earlier line first)).1 = .ok parsed →
      (parse (parsing earlier line second)).1 = .ok parsed' → first = second) ∧
    (∀ count blame, (parse (parsing earlier line count)).1 = .error blame →
      ∀ later, count < later → (parsing earlier line later).reading.cursor.rest = [] ∧
        ((parsing earlier line later).unread = [] ∨
          ∃ token, token.span = blame ∧ (parsing earlier line later).unread = [token])) ∧
    (parsing earlier line 0).unread = (Cursor.ofLine line).tokens ∧
    (∀ count later, count ≤ later →
      (parsing earlier line later).unread.Sublist (parsing earlier line count).unread) ∧
    (∀ count, 1 ≤ count →
      (parsing earlier line count).findings.unrecognized =
          (parsing earlier line 1).findings.unrecognized ∧
        (parsing earlier line count).findings.unrecognizedText =
          (parsing earlier line 1).findings.unrecognizedText) ∧
    ∃ blame, ∀ count, 2 ≤ count → (parse (parsing earlier line count)).1 = .error blame ∧
      (parsing earlier line (count + 1)).findings = (parsing earlier line 3).findings := by
  have hstart := State.rests_ofLine line earlier
  have fails {first second : Nat} {parsed : Statement}
      (hok : (parse (parsing earlier line first)).1 = .ok parsed) (hlt : first < second) :
      ∃ blame, (parse (parsing earlier line second)).1 = .error blame := by
    obtain ⟨left, -, hleft⟩ := hstart.afterParses first
    have hsettled : (parsing earlier line (first + 1)).Settled := hleft.settled_of_ok hok
    exact ⟨_, (hsettled.afterParses hlt).1.parse.1⟩
  refine ⟨?_, ?_, hstart.unread, fun count later => hstart.unread_sublist,
    fun count => hstart.afterParses_unrecognized, ?_⟩
  · intro first second parsed parsed' hfirst hsecond
    rcases Nat.lt_trichotomy first second with hlt | heq | hgt
    · obtain ⟨blame, herror⟩ := fails hfirst hlt
      rw [hsecond] at herror
      simp at herror
    · exact heq
    · obtain ⟨blame, herror⟩ := fails hsecond hgt
      rw [hfirst] at herror
      simp at herror
  · intro count blame herror later hlater
    obtain ⟨left, -, hleft⟩ := hstart.afterParses count
    exact ⟨hstart.afterParses_rest hlater (hleft.of_error herror).2,
      hstart.unread_after_error herror hlater⟩
  · obtain ⟨left, hlength, hleft⟩ := hstart.afterParses 1
    have hsettled : (parsing earlier line 2).Settled := hleft.settled_parse (hlength Nat.one_pos)
    refine ⟨(parsing earlier line 2).current.span, fun count hcount => ?_⟩
    obtain ⟨hlast, hcurrent, hfindings⟩ := hsettled.afterParses hcount
    have hparse := hlast.parse.1
    rw [hcurrent] at hparse
    exact ⟨hparse, hfindings⟩

end ArithLines.Descent
