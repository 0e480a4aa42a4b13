import ArithLines.Proofs.Descent.Parse
import ArithLines.Proofs.Descent.Simulation

/-! Parses of a line that begin with findings from before. Main statement: what is found before is
neither read by the parse nor lost; the result is that of a parse that begins with none, and the
findings are those of both together. -/

namespace ArithLines

namespace Findings

/-- The findings of a parse that begins with the findings `earlier` and would have come to `fresh` had
it begun with none. It makes a difference whether it consumes a token, and where it fails, if it does. -/
def merge (earlier fresh : Findings) (consumes : Bool) (failure : Option Span) : Findings :=
  let records := fresh.unrecognized && !earlier.unrecognized
  { assignment := earlier.assignment || fresh.assignment
    complexTarget := earlier.complexTarget || fresh.complexTarget
    awaitsOperand := if consumes then fresh.awaitsOperand else earlier.awaitsOperand
    unrecognized := earlier.unrecognized || fresh.unrecognized
    nestedTooDeep := earlier.nestedTooDeep || fresh.nestedTooDeep
    unbalanced := earlier.unbalanced || fresh.unbalanced
    trailing := earlier.trailing || fresh.trailing
    failed := earlier.failed || fresh.failed
    unrecognizedText := if records then fresh.unrecognizedText else earlier.unrecognizedText
    blame := if records then fresh.blame else earlier.blame.or failure
    reason := earlier.reason }

section Merge

variable (earlier fresh : Findings) (consumes : Bool) (failure : Option Span)

theorem merge_none : earlier.merge {} false none = earlier := by
  simp [merge]

theorem merge_recordUnrecognized (text : List Char) (span : Span) :
    (earlier.merge fresh consumes failure).recordUnrecognized text span =
      earlier.merge (fresh.recordUnrecognized text span) consumes failure := by
  by_cases hfresh : fresh.unrecognized = true
  · simp [recordUnrecognized, merge, hfresh]
  · by_cases hearlier : earlier.unrecognized = true
    · simp [recordUnrecognized, merge, hfresh, hearlier]
    · simp [recordUnrecognized, merge, hfresh, hearlier]

theorem merge_recordFirst (tokens : List Token) :
    (earlier.merge fresh consumes failure).recordFirst tokens =
      earlier.merge (fresh.recordFirst tokens) consumes failure := by
  rw [recordFirst, recordFirst]
  split
  · rfl
  · exact merge_recordUnrecognized ..

theorem merge_complain (complaint : Complaint) :
    (earlier.merge fresh consumes failure).complain complaint =
      earlier.merge (fresh.complain complaint) consumes failure := by
  cases complaint <;> simp [complain, merge]

theorem merge_assignment :
    { earlier.merge fresh consumes failure with assignment := true } =
      earlier.merge { fresh with assignment := true } consumes failure := by
  simp [merge]

theorem merge_awaitsOperand (awaits : Bool) :
    { earlier.merge fresh consumes failure with awaitsOperand := awaits } =
      earlier.merge { fresh with awaitsOperand := awaits } true failure := by
  simp [merge]

theorem merge_failAt (blame : Span) :
    (earlier.merge fresh consumes none).failAt blame =
      earlier.merge (fresh.failAt blame) consumes (some blame) := by
  by_cases hrecords : (fresh.unrecognized && !earlier.unrecognized) = true
  · simp [failAt, merge, hrecords]
  · simp [failAt, merge, hrecords]

end Merge

end Findings

namespace Descent

open Findings

/-- `other` is what `state` would be had the parse of the line begun with the findings `earlier`. -/
structure Carries (earlier : Findings) (line : List Char) (state other : State) : Prop where
  cursor : other.reading.cursor = state.reading.cursor
  current : other.current = state.current
  lookahead : other.lookahead = state.lookahead
  depth : other.depth = state.depth
  findings : ∃ read rest, (Cursor.ofLine line).tokens = read ++ rest ∧ state.Faces line rest ∧
    other.findings = earlier.merge state.findings (!read.isEmpty) none

section Readings

variable {earlier : Findings} {reading other : Reading} {consumes : Bool} {failure : Option Span}
  (hcursor : other.cursor = reading.cursor)
  (h : other.findings = earlier.merge reading.findings consumes failure)

include hcursor h

theorem next_merge :
    other.next.2.findings = earlier.merge reading.next.2.findings consumes failure := by
  rw [Reading.next_findings, Reading.next_findings, hcursor, h]
  split
  · exact merge_recordUnrecognized ..
  · rfl

theorem drain_merge :
    other.drain.findings = earlier.merge reading.drain.findings consumes failure := by
  rw [Reading.drain_findings, Reading.drain_findings, Reading.eventual, Reading.eventual, hcursor,
    h]
  exact merge_recordFirst ..

end Readings

namespace Carries

variable {earlier : Findings} {line : List Char} {state other : State}

theorem ofLine (earlier : Findings) (line : List Char) :
    Carries earlier line (.ofReading (.ofLine line {})) (.ofReading (.ofLine line earlier)) where
  cursor := by
    rw [State.ofReading, State.ofReading, Reading.next_cursor, Reading.next_cursor]
    rfl
  current := rfl
  lookahead := rfl
  depth := rfl
  findings := ⟨[], _, rfl, faces_ofLine line, next_merge rfl earlier.merge_none.symm⟩

theorem peek (h : Carries earlier line state other) :
    Carries earlier line state.peek other.peek := by
  obtain ⟨read, rest, htokens, hfaces, hfindings⟩ := h.findings
  have hlook := h.lookahead
  cases hstate : state.lookahead with
  | none =>
    rw [hstate] at hlook
    have hnext := next_merge h.cursor hfindings
    refine ⟨?_, ?_, ?_, ?_, read, rest, htokens, hfaces.peek, ?_⟩
    · simp [State.peek, hstate, hlook, h.cursor]
    · simp [h.current]
    · simp [State.peek, hstate, hlook, h.cursor]
    · simp [h.depth]
    · simpa [State.peek, hstate, hlook, State.findings] using hnext
  | some token =>
    rw [hstate] at hlook
    have hsame : state.peek = state := by rw [State.peek, hstate]
    have hsame' : other.peek = other := by rw [State.peek, hlook]
    rwa [hsame, hsame']

theorem shift (h : Carries earlier line state other) {consumes : Bool}
    (hfindings : other.findings = earlier.merge state.findings consumes none) :
    other.shift.reading.cursor = state.shift.reading.cursor ∧
      other.shift.current = state.shift.current ∧ other.shift.lookahead = state.shift.lookahead ∧
      other.shift.findings = earlier.merge state.shift.findings consumes none := by
  have hlook := h.lookahead
  cases hstate : state.lookahead with
  | none =>
    rw [hstate] at hlook
    have hnext := next_merge h.cursor hfindings
    simp [State.shift, hstate, hlook, h.cursor, State.findings, hnext]
  | some token =>
    rw [hstate] at hlook
    simpa [State.shift, hstate, hlook, State.findings, h.cursor] using hfindings

theorem advance (h : Carries earlier line state other) (hkind : state.current.kind ≠ .endOfLine) :
    Carries earlier line state.advance other.advance := by
  obtain ⟨read, rest, htokens, hfaces, hfindings⟩ := h.findings
  obtain ⟨hcursor, hcurrent, hlook, hshift⟩ := h.shift hfindings
  refine ⟨hcursor, hcurrent, hlook, ?_, read ++ [state.current], rest.tail, ?_, hfaces.advance, ?_⟩
  · simp [h.depth]
  · rw [htokens, List.append_assoc, List.singleton_append, ← hfaces.eq_cons hkind]
  · have hconsumed : (!(read ++ [state.current]).isEmpty) = true := by simp
    rw [hconsumed, State.advance, State.advance, h.current]
    exact (congrArg (fun findings : Findings => { findings with
      awaitsOperand := state.current.kind.awaitsOperand }) hshift).trans (merge_awaitsOperand ..)

theorem amend (h : Carries earlier line state other) (change : Findings → Findings)
    (hchange : ∀ fresh consumes,
      change (earlier.merge fresh consumes none) = earlier.merge (change fresh) consumes none) :
    Carries earlier line (state.amend change) (other.amend change) := by
  obtain ⟨read, rest, htokens, hfaces, hfindings⟩ := h.findings
  refine ⟨h.cursor, h.current, h.lookahead, h.depth, read, rest, htokens, hfaces.amend _, ?_⟩
  exact (congrArg change hfindings).trans (hchange ..)

theorem note (h : Carries earlier line state other) (event : Event) :
    Carries earlier line (state.note event) (other.note event) := by
  obtain ⟨read, rest, htokens, hfaces, hfindings⟩ := h.findings
  exact ⟨h.cursor, h.current, h.lookahead, h.depth, read, rest, htokens,
    ⟨hfaces.current, hfaces.following, hfaces.place⟩, hfindings⟩

theorem halt (h : Carries earlier line state other) (complaint : Option Complaint) :
    Carries earlier line (state.halt complaint) (other.halt complaint) := by
  rw [State.halt, State.halt, h.current]
  cases complaint with
  | none => exact h.note _
  | some complaint =>
    exact ((h.note (.complained complaint)).amend (·.complain complaint)
      fun fresh consumes => merge_complain earlier fresh consumes none complaint).note _

theorem moved (h : Carries earlier line state other) (change : Nat → Nat) :
    Carries earlier line { state with depth := change state.depth }
      { other with depth := change other.depth } := by
  obtain ⟨read, rest, htokens, hfaces, hfindings⟩ := h.findings
  exact ⟨h.cursor, h.current, h.lookahead, congrArg change h.depth, read, rest, htokens,
    ⟨hfaces.current, hfaces.following, hfaces.place⟩, hfindings⟩

theorem simulation (earlier : Findings) (line : List Char) : Simulation (Carries earlier line) where
  current h := h.current
  lookahead h := h.lookahead
  depth h := h.depth
  peek h := h.peek
  advance h hkind := h.advance hkind
  opened h := h.moved (· + 1)
  closed h := h.moved (· - 1)
  halt complaint h := h.halt complaint
  assignment h := h.amend _ fun fresh consumes => merge_assignment earlier fresh consumes none

end Carries

/-- Where a parse fails, if it does. -/
def failure? {α : Type} : Except Span α → Option Span
  | .ok _ => none
  | .error blame => some blame

/-- What was found before makes no difference to what a parse comes to, and of the findings nothing is
lost: they are those before, together with those of the same parse when nothing was found before. The
tokens that it consumes are those before the one at which it ends. -/
theorem parse_merge (earlier : Findings) (line : List Char) :
    let fresh := parse (.ofReading (.ofLine line {}))
    let later := parse (.ofReading (.ofLine line earlier))
    later.1 = fresh.1 ∧
    ∃ read rest, (Cursor.ofLine line).tokens = read ++ rest ∧
      fresh.2.current = rest.headD (.endOfLine line.length) ∧
      later.2.findings = earlier.merge fresh.2.findings (!read.isEmpty) (failure? fresh.1) := by
  have hwhole := (Carries.simulation earlier line).wholeLine (Carries.ofLine earlier line)
  simp only [parse]
  generalize wholeLine (.ofReading (.ofLine line {})) = first,
    wholeLine (.ofReading (.ofLine line earlier)) = second at hwhole ⊢
  obtain ⟨result, last⟩ := first
  obtain ⟨result', last'⟩ := second
  obtain ⟨rfl, hlast⟩ : result' = result ∧ Carries earlier line last last' := hwhole
  obtain ⟨read, rest, htokens, hfaces, hfindings⟩ := hlast.findings
  cases result' with
  | ok parsed => exact ⟨rfl, read, rest, htokens, hfaces.current, hfindings⟩
  | error blame =>
    have hmarked : (last'.amend (·.failAt blame)).findings =
        earlier.merge (last.amend (·.failAt blame)).findings (!read.isEmpty) (some blame) :=
      (congrArg (·.failAt blame) hfindings).trans (merge_failAt ..)
    have hcursor : (last'.amend (·.failAt blame)).reading.cursor =
        (last.amend (·.failAt blame)).reading.cursor := hlast.cursor
    exact ⟨rfl, read, rest, htokens, hfaces.current, drain_merge hcursor hmarked⟩

end Descent

end ArithLines
