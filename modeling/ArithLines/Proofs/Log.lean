import ArithLines.Proofs.Descent.Ending
import ArithLines.Proofs.Unrecognized

/-! The log of a check. Reading a token leaves the same records wherever the descent is, so that
the log is that of the tokens of the line in their order, with what the descent says of its failure
after the token at which it stops. -/

namespace ArithLines

namespace Event

def scanned? : Event → Option Token
  | scanned token => some token
  | _ => none

def stopped? : Event → Option Token
  | stopped token => some token
  | _ => none

def unrecognized? : Event → Option (List Char × Span)
  | unrecognized text span => some (text, span)
  | _ => none

end Event

/-! ### What reading leaves in the log -/

namespace Reading

/-- The records of a token that is read, where an unrecognized one was `seen` before or not. -/
def record (seen : Bool) (token : Token) : List Event :=
  if token.kind = .endOfLine then []
  else if token.kind = .invalid ∧ seen = false then
    [.unrecognized token.lexeme token.span, .scanned token]
  else [.scanned token]

def records (seen : Bool) : List Token → List Event
  | [] => []
  | token :: tokens => record seen token ++ records (seen || token.kind = .invalid) tokens

theorem records_append (seen : Bool) (before after : List Token) :
    records seen (before ++ after) =
      records seen before ++ records (seen || before.any (·.kind = .invalid)) after := by
  induction before generalizing seen with
  | nil => simp [records]
  | cons token before ih => simp [records, ih, Bool.or_assoc]

theorem record_of_endOfLine {token : Token} (h : token.kind = .endOfLine) (seen : Bool) :
    record seen token = [] :=
  if_pos h

theorem scanned_record (seen : Bool) (token : Token) :
    (record seen token).filterMap Event.scanned? = [token].filter (·.kind ≠ .endOfLine) := by
  by_cases hend : token.kind = .endOfLine
  · rw [record_of_endOfLine hend]
    simp [hend]
  · have hkept : [token].filter (·.kind ≠ .endOfLine) = [token] := by simp [hend]
    rw [hkept, record, if_neg hend]
    split <;> rfl

/-- Every token but the end of the line is recorded once. -/
theorem scanned_records (seen : Bool) (tokens : List Token) :
    (records seen tokens).filterMap Event.scanned? = tokens.filter (·.kind ≠ .endOfLine) := by
  induction tokens generalizing seen with
  | nil => rfl
  | cons token tokens ih =>
    rw [records, List.filterMap_append, scanned_record, ih, ← List.filter_append,
      List.singleton_append]

theorem stopped_records (seen : Bool) (tokens : List Token) :
    (records seen tokens).filterMap Event.stopped? = [] := by
  induction tokens generalizing seen with
  | nil => rfl
  | cons token tokens ih =>
    rw [records, List.filterMap_append, ih, List.append_nil, record]
    split
    · rfl
    · split <;> rfl

theorem severity_record {seen : Bool} {token : Token} :
    ∀ event ∈ record seen token, event.severity = .trace := by
  rw [record]
  split
  · simp
  · split <;> simp [Event.severity]

theorem severity_records {seen : Bool} {tokens : List Token} :
    ∀ event ∈ records seen tokens, event.severity = .trace := by
  induction tokens generalizing seen with
  | nil => simp [records]
  | cons token tokens ih => exact List.forall_mem_append.mpr ⟨severity_record, ih⟩

theorem unrecognized_record {seen : Bool} {token : Token}
    (h : token.kind = .invalid → seen = true) :
    (record seen token).filterMap Event.unrecognized? = [] := by
  rw [record]
  split
  · rfl
  · split
    · next hnew => simp [h hnew.1] at hnew
    · rfl

theorem unrecognized_records {seen : Bool} {tokens : List Token}
    (h : ∀ token ∈ tokens, token.kind = .invalid → seen = true) :
    (records seen tokens).filterMap Event.unrecognized? = [] := by
  induction tokens generalizing seen with
  | nil => rfl
  | cons token tokens ih =>
    rw [records, List.filterMap_append, unrecognized_record (h token (by simp)), ih,
      List.nil_append]
    intro other hother hkind
    simp [h other (by simp [hother]) hkind]

/-- The first unrecognized token is told of right before it is recorded as read. -/
theorem records_of_first {tokens : List Token} {first : Token}
    (h : tokens.find? (·.kind = .invalid) = some first) :
    ∃ before after, records false tokens =
        before ++ .unrecognized first.lexeme first.span :: .scanned first :: after ∧
      before.filterMap Event.unrecognized? = [] ∧ after.filterMap Event.unrecognized? = [] := by
  obtain ⟨hkind, earlier, later, rfl, hearlier⟩ := List.find?_eq_some_iff_append.mp h
  have hkind : first.kind = .invalid := by simpa using hkind
  have hnone : earlier.any (·.kind = .invalid) = false := by
    rw [List.any_eq_false]
    simpa using hearlier
  refine ⟨records false earlier, records true later, ?_, unrecognized_records ?_,
    unrecognized_records fun _ _ _ => rfl⟩
  · rw [records_append, hnone, records, record, hkind]
    rfl
  · intro token htoken hinvalid
    simpa [hinvalid] using hearlier token htoken

/-- The records so far, oldest first. -/
def log (reading : Reading) : List Event := reading.events.reverse

theorem observe_log (reading : Reading) (token : Token) :
    (reading.observe token).log = reading.log ++ record reading.findings.unrecognized token := by
  rw [observe, record]
  split
  · next hend => simp [hend]
  · next hinvalid =>
    cases h : reading.findings.unrecognized <;> simp [log, recordUnrecognized, h, hinvalid]
  · next hend hinvalid => simp [log, show token.kind ≠ .endOfLine from hend,
      show token.kind ≠ .invalid from hinvalid]

theorem observe_unrecognized (reading : Reading) (token : Token) :
    (reading.observe token).findings.unrecognized =
      (reading.findings.unrecognized || token.kind = .invalid) := by
  rw [observe_findings]
  split
  · next h => simp [h]
  · next h => simp [h]

theorem next_log (reading : Reading) : reading.next.2.log =
    reading.log ++ record reading.findings.unrecognized reading.cursor.next.1 :=
  observe_log ..

theorem next_unrecognized (reading : Reading) : reading.next.2.findings.unrecognized =
    (reading.findings.unrecognized || reading.cursor.next.1.kind = .invalid) :=
  observe_unrecognized ..

theorem drain_log (reading : Reading) : reading.drain.log =
    reading.log ++ records reading.findings.unrecognized reading.cursor.tokens := by
  fun_induction drain reading with
  | case1 reading hkind =>
    have hend : reading.cursor.next.1.kind = .endOfLine := hkind
    rw [next_log, record_of_endOfLine hend, Cursor.tokens_of_endOfLine hend]
    rfl
  | case2 reading hkind ih =>
    have hnext : reading.cursor.next.1.kind ≠ .endOfLine := hkind
    rw [ih, next_log, next_unrecognized, next_cursor, Cursor.tokens_of_token hnext, records,
      List.append_assoc]

/-- Of the tokens of the line `read` are read, and the log tells of these and no more. -/
structure Recorded (line : List Char) (read : List Token) (reading : Reading) : Prop where
  split : (Cursor.ofLine line).tokens = read ++ reading.cursor.tokens
  log : reading.log = records false read
  unrecognized : reading.findings.unrecognized = read.any (·.kind = .invalid)

theorem recorded_ofLine (line : List Char) : (ofLine line {}).Recorded line [] := ⟨rfl, rfl, rfl⟩

theorem Recorded.next {line : List Char} {read : List Token} {reading : Reading}
    (h : reading.Recorded line read) : ∃ read', reading.next.2.Recorded line read' := by
  by_cases hkind : reading.cursor.next.1.kind = .endOfLine
  · refine ⟨read, ?_, ?_, ?_⟩
    · rw [h.split, next_cursor, Cursor.next_tokens, Cursor.tokens_of_endOfLine hkind]
      rfl
    · rw [next_log, h.log, record_of_endOfLine hkind, List.append_nil]
    · rw [next_unrecognized, h.unrecognized, hkind]
      simp
  · refine ⟨read ++ [reading.cursor.next.1], ?_, ?_, ?_⟩
    · rw [h.split, next_cursor, Cursor.tokens_of_token hkind, List.append_assoc,
        List.singleton_append]
    · rw [next_log, h.log, h.unrecognized, records_append]
      simp [records]
    · rw [next_unrecognized, h.unrecognized]
      simp

end Reading

/-! ### The log of a parse -/

namespace Descent

open Reading (records)

theorem records_concat_end (seen : Bool) (tokens : List Token) (length : Nat) :
    records seen (tokens ++ [.endOfLine length]) = records seen tokens := by
  rw [Reading.records_append, records, Reading.record_of_endOfLine rfl]
  exact List.append_nil _

namespace State

variable {line : List Char} {state : State}

def log (state : State) : List Event := state.reading.log

/-- The log tells of the tokens that are read, and of nothing else. -/
def Recorded (line : List Char) (state : State) : Prop := ∃ read, state.reading.Recorded line read

theorem Recorded.peek (h : state.Recorded line) : state.peek.Recorded line := by
  rw [State.peek]
  split
  · exact h
  · exact h.elim fun _ hread => hread.next

theorem Recorded.advance (h : state.Recorded line) : state.advance.Recorded line := by
  have hshift : state.shift.Recorded line := by
    rw [shift]
    split
    · exact h
    · exact h.elim fun _ hread => hread.next
  obtain ⟨read, hread⟩ := hshift
  exact ⟨read, hread.split, hread.log, hread.unrecognized⟩

theorem Recorded.consume (h : state.Recorded line) : state.consume.Recorded line := by
  rw [State.consume]
  split <;> exact h.advance

theorem Recorded.expressionStart (h : state.Recorded line) :
    state.expressionStart.Recorded line := by
  rw [State.expressionStart]
  split
  · split
    · obtain ⟨read, hread⟩ := h.peek
      have hmarked : (state.peek.amend fun findings =>
          { findings with assignment := true }).Recorded line :=
        ⟨read, hread.split, hread.log, hread.unrecognized⟩
      exact hmarked.advance.advance
    · exact h.peek
  · exact h

/-- Where nothing is read ahead, the log tells of the tokens up to the current one. -/
theorem Recorded.current {read rest : List Token} (h : state.Recorded line)
    (hfaces : state.Faces line rest) (hlook : state.lookahead = none)
    (hsplit : (Cursor.ofLine line).tokens = read ++ rest) :
    state.log = records false (read ++ [state.current]) ∧
      state.findings.unrecognized = (read ++ [state.current]).any (·.kind = .invalid) ∧
      ∃ more, tokens line = read ++ state.current :: more ∧
        ∀ seen, records seen state.reading.cursor.tokens = records seen more := by
  obtain ⟨told, htold⟩ := h
  have hcoming := hfaces.tokens_of_lookahead hlook
  have hall := htold.split
  rw [hcoming, hsplit] at hall
  have hlog : state.log = records false told := htold.log
  have hseen : state.findings.unrecognized = told.any (·.kind = .invalid) := htold.unrecognized
  rw [hlog, hseen, hcoming, tokens, hsplit, hfaces.current]
  cases rest with
  | nil =>
    obtain rfl : read = told := List.append_cancel_right hall
    refine ⟨(records_concat_end ..).symm, ?_, [], by simp, fun _ => rfl⟩
    rw [List.any_append]
    exact (Bool.or_false _).symm
  | cons token more =>
    obtain rfl : told = read ++ [token] := by
      rw [List.tail_cons, List.append_cons] at hall
      exact (List.append_cancel_right hall).symm
    refine ⟨rfl, rfl, more ++ [.endOfLine line.length], by simp, fun seen => ?_⟩
    exact (records_concat_end ..).symm

/-- After a failure the log tells of it before it tells of the tokens that were not read then. -/
theorem failed_log (state : State) (complaint : Option Complaint) :
    (state.failed complaint).log =
      state.log ++ (complaint.toList.map .complained ++
        .stopped state.current ::
          records state.findings.unrecognized state.reading.cursor.tokens) := by
  have hdrain := Reading.drain_log
    ((state.halt complaint).amend (·.failAt state.current.span)).reading
  refine Eq.trans hdrain ?_
  cases complaint with
  | none => simp [amend, halt, note, log, Reading.log, findings, Findings.failAt]
  | some complaint =>
    have hsame : (state.findings.complain complaint).unrecognized =
        state.findings.unrecognized := by cases complaint <;> rfl
    rw [findings] at hsame
    simp [amend, halt, note, log, Reading.log, findings, Findings.failAt, complain, hsame]

end State

theorem Path.recorded {line : List Char} {floor : Nat} {mode mode' : Mode} {state last : State}
    {read : List Token} (h : Path floor mode state read mode' last) (hstate : state.Recorded line) :
    last.Recorded line := by
  induction h with
  | nil => exact hstate
  | cons _ _ ih => exact ih hstate.consume

/-- What the log tells after the parse of a line. -/
inductive Logged (line : List Char) : Except Span Statement × State → Prop
  | parsed {parsed : Statement} {last : State} :
      last.log = records false (tokens line) → Logged line (.ok parsed, last)
  | failed {read rest : List Token} {token : Token} {complaint : Option Complaint} {last : State} :
      tokens line = read ++ token :: rest → last.current = token →
      last.log = records false (read ++ [token]) ++ (complaint.toList.map .complained ++
        .stopped token :: records ((read ++ [token]).any (·.kind = .invalid)) rest) →
      Logged line (.error token.span, last)

theorem logged_parse (line : List Char) : Logged line (parse (.ofLine line)) := by
  have hended := ended_parse (.ofLine line) rfl
  have hrecorded : (State.ofLine line).Recorded line := (Reading.recorded_ofLine line).next
  obtain ⟨body, ⟨lead, hbody⟩, hstart⟩ := (faces_ofLine line).exists_expressionStart
  generalize parse (.ofLine line) = outcome at hended
  cases hended with
  | @parsed _ path last hpath _ hend hlook =>
    obtain ⟨rest, rfl, hlast⟩ := hpath.faces hstart
    have hsplit : (Cursor.ofLine line).tokens = (lead ++ path) ++ rest := by simp [← hbody]
    obtain ⟨hlog, -, -⟩ := (hpath.recorded hrecorded.expressionStart).current hlast hlook hsplit
    have hproper : ∀ token ∈ rest, token.kind ≠ .endOfLine := fun token htoken =>
      Cursor.kind_ne_endOfLine token (by rw [hsplit]; exact List.mem_append_right _ htoken)
    obtain rfl := hlast.eq_nil hproper hend
    refine .parsed (hlog.trans ?_)
    rw [tokens, hsplit, hlast.current, List.append_nil]
    rfl
  | @failed mode path place hpath _ _ hlook =>
    obtain ⟨rest, rfl, hplace⟩ := hpath.faces hstart
    have hsplit : (Cursor.ofLine line).tokens = (lead ++ path) ++ rest := by simp [← hbody]
    obtain ⟨hlog, hseen, more, htokens, hmore⟩ :=
      (hpath.recorded hrecorded.expressionStart).current hplace hlook hsplit
    generalize place.lineComplaint (State.ofLine line).depth mode = complaint
    have hfailed := place.failed_log complaint
    rw [hlog, hseen, hmore] at hfailed
    exact .failed htokens (place.failed_current complaint) hfailed

/-- The log is that of the tokens of the line, but for what the descent tells between two of
them. -/
theorem Logged.parts {line : List Char} {outcome : Except Span Statement × State}
    (h : Logged line outcome) : ∃ read rest told, tokens line = read ++ rest ∧
      outcome.2.log =
        records false read ++ (told ++ records (read.any (·.kind = .invalid)) rest) ∧
      told.filterMap Event.scanned? = [] ∧ told.filterMap Event.unrecognized? = [] ∧
      ∀ event ∈ told, event.severity = .trace := by
  cases h with
  | parsed hlog =>
    exact ⟨tokens line, [], [], by simp, by simp [hlog, Reading.records], rfl, rfl, by simp⟩
  | @failed read rest token complaint last hsplit _ hlog =>
    refine ⟨read ++ [token], rest, complaint.toList.map .complained ++ [.stopped token],
      by simp [hsplit], by simp [hlog], ?_⟩
    cases complaint with
    | none => exact ⟨rfl, rfl, by simp [Event.severity]⟩
    | some complaint => exact ⟨rfl, rfl, by simp [Event.severity]⟩

end Descent

/-! ### The log of a check -/

section Check

open Descent (Logged logged_parse)
open Reading (records scanned_records stopped_records severity_records unrecognized_records
  records_of_first)

variable (line : List Char)

theorem examine_events : (examine line).events =
    (Descent.parse (.ofLine line)).2.log ++ [.judged line (validate line).reason] :=
  List.reverse_cons

theorem scanned_events :
    (examine line).events.filterMap Event.scanned? =
      (tokens line).filter (·.kind ≠ .endOfLine) := by
  obtain ⟨read, rest, told, hsplit, hlog, htold, -, -⟩ := (logged_parse line).parts
  rw [examine_events, hlog, hsplit]
  simp only [List.filterMap_append, List.filter_append, scanned_records, htold, List.nil_append]
  exact List.append_nil _

theorem severity_events : ∀ event ∈ (Descent.parse (.ofLine line)).2.log,
    event.severity = .trace := by
  obtain ⟨read, rest, told, -, hlog, -, -, htold⟩ := (logged_parse line).parts
  rw [hlog]
  exact List.forall_mem_append.mpr ⟨severity_records,
    List.forall_mem_append.mpr ⟨htold, severity_records⟩⟩

theorem unrecognized_events_of_none {line : List Char} (h : firstUnrecognized line = none) :
    (examine line).events.filterMap Event.unrecognized? = [] := by
  obtain ⟨read, rest, told, hsplit, hlog, -, htold, -⟩ := (logged_parse line).parts
  have hknown := firstUnrecognized_eq_none_iff.mp h
  rw [hsplit] at hknown
  rw [examine_events, hlog]
  simp only [List.filterMap_append, htold]
  rw [unrecognized_records fun token ht hkind => absurd hkind (hknown token (by simp [ht])),
    unrecognized_records fun token ht hkind => absurd hkind (hknown token (by simp [ht]))]
  rfl

theorem unrecognized_events_of_some {line : List Char} {first : Token}
    (h : firstUnrecognized line = some first) : ∃ before after, (examine line).events =
        before ++ .unrecognized first.lexeme first.span :: .scanned first :: after ∧
      before.filterMap Event.unrecognized? = [] ∧ after.filterMap Event.unrecognized? = [] := by
  obtain ⟨read, rest, told, hsplit, hlog, -, htold, -⟩ := (logged_parse line).parts
  rw [← find?_tokens, hsplit, List.find?_append] at h
  rw [examine_events, hlog]
  -- The first unrecognized token is read before the descent stops, or else drained
  cases hread : read.find? (·.kind = .invalid) with
  | some other =>
    rw [hread] at h
    obtain rfl : other = first := Option.some.inj h
    have hinvalid := List.find?_some hread
    have hseen : read.any (·.kind = .invalid) = true :=
      List.any_eq_true.mpr ⟨other, List.mem_of_find?_eq_some hread, hinvalid⟩
    obtain ⟨before, after, hrecords, hbefore, hafter⟩ := records_of_first hread
    refine ⟨before, after ++ (told ++ records true rest) ++ [.judged line (validate line).reason],
      by simp [hrecords, hseen], hbefore, ?_⟩
    simp only [List.filterMap_append, hafter, htold]
    rw [unrecognized_records fun _ _ _ => rfl]
    rfl
  | none =>
    rw [hread] at h
    have hknown := List.find?_eq_none.mp hread
    have hseen : read.any (·.kind = .invalid) = false := List.any_eq_false.mpr hknown
    obtain ⟨before, after, hrecords, hbefore, hafter⟩ :=
      records_of_first (Option.none_or.symm.trans h)
    refine ⟨records false read ++ (told ++ before), after ++ [.judged line (validate line).reason],
      by simp [hrecords, hseen], ?_, ?_⟩
    · simp only [List.filterMap_append, hbefore, htold]
      rw [unrecognized_records fun token ht hkind =>
        absurd (decide_eq_true hkind) (hknown token ht)]
      rfl
    · simp only [List.filterMap_append, hafter]
      rfl

theorem stopped_events_of_accepted {line : List Char} (h : (validate line).accepted = true) :
    (examine line).events.filterMap Event.stopped? = [] := by
  obtain ⟨parsed, last, hparse⟩ := exists_parse_of_accepted h
  have hlogged := logged_parse line
  rw [examine_events]
  rw [hparse] at hlogged ⊢
  cases hlogged with
  | parsed hlog =>
    rw [hlog, List.filterMap_append, stopped_records]
    rfl

theorem stopped_events_of_rejected {line : List Char} (h : (validate line).accepted = false) :
    ∃ read token rest before after, tokens line = read ++ token :: rest ∧
      (Descent.parse (.ofLine line)).1 = .error token.span ∧
      (Descent.parse (.ofLine line)).2.current = token ∧
      (examine line).events = before ++ .stopped token :: after ∧
      before.filterMap Event.stopped? = [] ∧ after.filterMap Event.stopped? = [] ∧
      before.filterMap Event.scanned? = (read ++ [token]).filter (·.kind ≠ .endOfLine) ∧
      after.filterMap Event.scanned? = rest.filter (·.kind ≠ .endOfLine) := by
  rw [examine_events]
  generalize hparse : Descent.parse (.ofLine line) = outcome
  cases hparse ▸ logged_parse line with
  | parsed =>
    rw [validate, (examine_of_ok hparse).1] at h
    cases h
  | @failed read rest token complaint last hsplit hcurrent hlog =>
    refine ⟨read, token, rest,
      records false (read ++ [token]) ++ complaint.toList.map .complained,
      records ((read ++ [token]).any (·.kind = .invalid)) rest ++
        [.judged line (validate line).reason],
      hsplit, rfl, hcurrent, by simp [hlog], ?_, ?_, ?_, ?_⟩
    · rw [List.filterMap_append, stopped_records]
      cases complaint <;> rfl
    · rw [List.filterMap_append, stopped_records]
      rfl
    · rw [List.filterMap_append, scanned_records]
      cases complaint <;> exact List.append_nil _
    · rw [List.filterMap_append, scanned_records]
      exact List.append_nil _

/-- The log of a check tells of each token of the line once and in order, of the token at which a
line fails, after the tokens up to it and before all others, of the first unrecognized token right
before this is recorded as read, and last of the verdict. -/
theorem events_faithful :
    (examine line).events.filterMap Event.scanned? =
      (tokens line).filter (·.kind ≠ .endOfLine) ∧
    ((validate line).accepted = true → (examine line).events.filterMap Event.stopped? = []) ∧
    ((validate line).accepted = false → ∃ read token rest before after,
      tokens line = read ++ token :: rest ∧
      (Descent.parse (.ofLine line)).1 = .error token.span ∧
      (Descent.parse (.ofLine line)).2.current = token ∧
      (examine line).events = before ++ .stopped token :: after ∧
      before.filterMap Event.stopped? = [] ∧ after.filterMap Event.stopped? = [] ∧
      before.filterMap Event.scanned? = (read ++ [token]).filter (·.kind ≠ .endOfLine) ∧
      after.filterMap Event.scanned? = rest.filter (·.kind ≠ .endOfLine)) ∧
    ((∀ text, (validate line).reason ≠ some (.unrecognizedToken text)) →
      (examine line).events.filterMap Event.unrecognized? = []) ∧
    (∀ text, (validate line).reason = some (.unrecognizedToken text) →
      ∃ first before after, (tokens line).find? (·.kind = .invalid) = some first ∧
        first.lexeme = text ∧
        (examine line).events =
          before ++ .unrecognized first.lexeme first.span :: .scanned first :: after ∧
        before.filterMap Event.unrecognized? = [] ∧ after.filterMap Event.unrecognized? = []) ∧
    ∃ before, (examine line).events = before ++ [.judged line (validate line).reason] ∧
      ∀ event ∈ before, event.severity = .trace := by
  refine ⟨scanned_events line, stopped_events_of_accepted, stopped_events_of_rejected, ?_, ?_,
    _, examine_events line, severity_events line⟩
  · intro hreason
    cases hfirst : firstUnrecognized line with
    | none => exact unrecognized_events_of_none hfirst
    | some first =>
      rw [validate_of_unrecognized hfirst] at hreason
      exact absurd rfl (hreason first.lexeme)
  · intro text hreason
    cases hfirst : firstUnrecognized line with
    | none => exact absurd hreason (reason_ne_unrecognized hfirst text)
    | some first =>
      obtain ⟨before, after, hevents⟩ := unrecognized_events_of_some hfirst
      rw [validate_of_unrecognized hfirst] at hreason
      refine ⟨first, before, after, (find?_tokens line).trans hfirst, ?_, hevents⟩
      exact Reason.unrecognizedToken.inj (Option.some.inj hreason)

end Check

/-- The line fails at `$`, and what comes after it is still read. -/
example : (examine "1$2".toList).events =
    [.scanned ⟨.number, ['1'], ⟨0, 1⟩⟩, .unrecognized ['$'] ⟨1, 2⟩,
      .scanned ⟨.invalid, ['$'], ⟨1, 2⟩⟩, .stopped ⟨.invalid, ['$'], ⟨1, 2⟩⟩,
      .scanned ⟨.number, ['2'], ⟨2, 3⟩⟩,
      .judged "1$2".toList (some (.unrecognizedToken ['$']))] := by
  decide +kernel

end ArithLines
