import ArithLines.Event
import ArithLines.Findings
import ArithLines.Token.Cursor

/-! A scan in progress: the cursor in the line together with the findings so far and the events that
led to them. Every token but the end of the line leaves a record as it is read. -/

namespace ArithLines

structure Reading where
  cursor : Cursor
  findings : Findings
  /-- The events so far, newest first. -/
  events : List Event
deriving DecidableEq

namespace Reading

/-- The start of a line, with the findings that are there before. -/
def ofLine (line : List Char) (findings : Findings) : Reading := ⟨.ofLine line, findings, []⟩

def note (reading : Reading) (event : Event) : Reading :=
  { reading with events := event :: reading.events }

/-- Takes note of an unrecognized token, and tells so of the first. -/
def recordUnrecognized (reading : Reading) (text : List Char) (span : Span) : Reading :=
  if reading.findings.unrecognized then reading
  else { reading.note (.unrecognized text span) with
    findings := reading.findings.recordUnrecognized text span }

def observe (reading : Reading) (token : Token) : Reading :=
  match token.kind with
  | .endOfLine => reading
  | .invalid => (reading.recordUnrecognized token.lexeme token.span).note (.scanned token)
  | _ => reading.note (.scanned token)

def next (reading : Reading) : Token × Reading :=
  let (token, cursor) := reading.cursor.next
  (token, { reading with cursor }.observe token)

@[simp] theorem note_cursor (reading : Reading) (event : Event) :
    (reading.note event).cursor = reading.cursor := rfl

@[simp] theorem note_findings (reading : Reading) (event : Event) :
    (reading.note event).findings = reading.findings := rfl

@[simp] theorem note_events (reading : Reading) (event : Event) :
    (reading.note event).events = event :: reading.events := rfl

@[simp] theorem recordUnrecognized_cursor (reading : Reading) (text : List Char) (span : Span) :
    (reading.recordUnrecognized text span).cursor = reading.cursor := by
  unfold recordUnrecognized; split <;> rfl

@[simp] theorem recordUnrecognized_findings (reading : Reading) (text : List Char) (span : Span) :
    (reading.recordUnrecognized text span).findings =
      reading.findings.recordUnrecognized text span := by
  unfold recordUnrecognized
  split
  · next h => rw [Findings.recordUnrecognized_of_unrecognized h]
  · rfl

@[simp] theorem observe_cursor (reading : Reading) (token : Token) :
    (reading.observe token).cursor = reading.cursor := by
  unfold observe; split <;> simp

theorem observe_findings (reading : Reading) (token : Token) :
    (reading.observe token).findings =
      if token.kind = .invalid then reading.findings.recordUnrecognized token.lexeme token.span
      else reading.findings := by
  unfold observe; split <;> simp_all

@[simp] theorem next_fst (reading : Reading) : reading.next.1 = reading.cursor.next.1 := rfl

@[simp] theorem next_cursor (reading : Reading) :
    reading.next.2.cursor = reading.cursor.next.2 := by
  simp [next]

theorem next_findings (reading : Reading) :
    reading.next.2.findings =
      if reading.cursor.next.1.kind = .invalid then
        reading.findings.recordUnrecognized reading.cursor.next.1.lexeme reading.cursor.next.1.span
      else reading.findings := by
  simp [next, observe_findings]

theorem next_length (reading : Reading) :
    reading.next.2.cursor.rest.length + reading.next.1.weight ≤ reading.cursor.rest.length := by
  simpa using reading.cursor.next_length

theorem next_length_lt {reading : Reading} (h : reading.next.1.kind ≠ .endOfLine) :
    reading.next.2.cursor.rest.length < reading.cursor.rest.length := by
  simpa using Cursor.next_length_lt h

/-- Reads what is left of the line, so that an unrecognized token anywhere in it is found. -/
def drain (reading : Reading) : Reading :=
  if _ : reading.next.1.kind = .endOfLine then reading.next.2
  else drain reading.next.2
termination_by reading.cursor.rest.length
decreasing_by exact next_length_lt ‹_›

end Reading

end ArithLines
