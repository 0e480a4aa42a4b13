import ArithLines.Proofs.Descent.Repetition
import ArithLines.Proofs.Prior

/-! Findings with a history: tokens are recorded, failures marked, lines scanned and parsed and
reasons settled, in any order. Main statement: what the findings hold is told by the first token
recorded and the first failure. -/

namespace ArithLines

namespace Findings

/-- What is done with findings over time. -/
inductive Operation where
  | record (text : List Char) (span : Span)
  | failAt (span : Span)
  | select
  | settle
  /-- The next token is read at a place in a line. -/
  | next (cursor : Cursor)
  /-- The rest of a line is drained. -/
  | drain (cursor : Cursor)
  /-- A line is parsed, and then so many times more by the same descent. -/
  | parse (line : List Char) (more : Nat)

/-- The unrecognized ones of these tokens, as they are recorded. -/
def recordable (tokens : List Token) : List (List Char × Span) :=
  (tokens.filter (·.kind = .invalid)).map fun token => (token.lexeme, token.span)

namespace Operation

def apply (findings : Findings) : Operation → Findings
  | record text span => findings.recordUnrecognized text span
  | failAt span => findings.failAt span
  | select => findings
  | settle => findings.settle
  | next cursor => (Reading.mk cursor findings []).next.2.findings
  | drain cursor => (Reading.mk cursor findings []).drain.findings
  | parse line more => (Descent.parsing findings line (more + 1)).findings

/-- The unrecognized tokens that come up. -/
def recorded : Operation → List (List Char × Span)
  | record text span => [(text, span)]
  | next cursor => recordable [cursor.next.1]
  | drain cursor => recordable cursor.tokens
  | parse line _ => recordable (Cursor.ofLine line).tokens
  | _ => []

/-- Where the operation fails, if it does. -/
def failures (findings : Findings) : Operation → List Span
  | failAt span => [span]
  | parse line more => (List.range (more + 1)).filterMap fun count =>
      Descent.failure? (Descent.parse (Descent.parsing findings line count)).1
  | _ => []

end Operation

/-- The findings after a history. -/
def after (findings : Findings) : List Operation → Findings
  | [] => findings
  | operation :: history => (operation.apply findings).after history

/-- The failures in a history, in order. -/
def failuresIn (findings : Findings) : List Operation → List Span
  | [] => []
  | operation :: history =>
    operation.failures findings ++ (operation.apply findings).failuresIn history

/-! ### What findings remember -/

theorem unrecognized_of_select {findings : Findings} {text : List Char}
    (h : findings.select = .unrecognizedToken text) :
    findings.unrecognized = true ∧ findings.unrecognizedText.getD [] = text := by
  rw [select] at h
  split at h
  · next hflag => exact ⟨hflag, Reason.unrecognizedToken.inj h⟩
  · repeat' split at h
    all_goals simp at h

/-- The findings tell of the first token that was recorded and of the first failure. -/
structure Remembers (recorded : List (List Char × Span)) (failures : List Span)
    (findings : Findings) : Prop where
  unrecognized : findings.unrecognized = recorded.head?.isSome
  text : findings.unrecognizedText = recorded.head?.map Prod.fst
  blame : findings.blame = (recorded.head?.map Prod.snd).or failures.head?
  failed : failures ≠ [] → findings.failed = true
  cause : findings.failed = true → recorded ≠ [] ∨ failures ≠ []
  settled : ∀ reason, findings.reason = some reason → findings.failed = true ∧
    ∀ text, reason = .unrecognizedToken text → recorded.head?.map Prod.fst = some text

namespace Remembers

variable {recorded : List (List Char × Span)} {failures : List Span} {findings other : Findings}

theorem new : Remembers [] [] {} := by
  constructor <;> simp

theorem congr (h : Remembers recorded failures findings)
    (hsame : other.unflagged = findings.unflagged) : Remembers recorded failures other := by
  have hflagless : Remembers recorded failures findings.unflagged :=
    ⟨h.unrecognized, h.text, h.blame, h.failed, h.cause, h.settled⟩
  rw [← hsame] at hflagless
  exact ⟨hflagless.unrecognized, hflagless.text, hflagless.blame, hflagless.failed,
    hflagless.cause, hflagless.settled⟩

theorem record (h : Remembers recorded failures findings) (text : List Char) (span : Span) :
    Remembers (recorded ++ [(text, span)]) failures (findings.recordUnrecognized text span) := by
  cases recorded with
  | nil =>
    have hnew : findings.unrecognized = false := h.unrecognized
    rw [recordUnrecognized, hnew]
    refine ⟨rfl, rfl, rfl, h.failed, fun _ => .inl (by simp), fun reason hreason => ?_⟩
    obtain ⟨hfailed, htext⟩ := h.settled reason hreason
    exact ⟨hfailed, fun text htold => by simpa using htext text htold⟩
  | cons first recorded =>
    rw [recordUnrecognized_of_unrecognized h.unrecognized]
    exact ⟨h.unrecognized, h.text, h.blame, h.failed, fun _ => .inl (by simp), h.settled⟩

theorem recordFirst (h : Remembers recorded failures findings) (tokens : List Token) :
    Remembers (recorded ++ recordable tokens) failures (findings.recordFirst tokens) := by
  induction tokens generalizing recorded findings with
  | nil => simpa [recordable] using h
  | cons token tokens ih =>
    rw [recordFirst_cons]
    by_cases hkind : token.kind = .invalid
    · have hrest := ih (h.record token.lexeme token.span)
      simpa [recordable, hkind] using hrest
    · simpa [recordable, hkind] using ih h

theorem failAt (h : Remembers recorded failures findings) (span : Span) :
    Remembers recorded (failures ++ [span]) (findings.failAt span) := by
  refine ⟨h.unrecognized, h.text, ?_, fun _ => rfl, fun _ => .inr (by simp), fun reason hreason =>
    ⟨rfl, (h.settled reason hreason).2⟩⟩
  show findings.blame.or (some span) = _
  rw [h.blame, List.head?_append, Option.or_assoc]
  rfl

theorem rejects_iff (h : Remembers recorded failures findings) :
    findings.rejects = true ↔ recorded ≠ [] ∨ failures ≠ [] := by
  rw [rejects, Bool.or_eq_true, h.unrecognized]
  constructor
  · rintro (hfailed | hsome)
    · exact h.cause hfailed
    · exact .inl (by rintro rfl; simp at hsome)
  · rintro (hrecorded | hfailures)
    · exact .inr (by simpa using hrecorded)
    · exact .inl (h.failed hfailures)

/-- An unrecognized token that is named as the reason is the first that was recorded. -/
theorem first_of_select (h : Remembers recorded failures findings) {text : List Char}
    (hselect : findings.select = .unrecognizedToken text) :
    recorded.head?.map Prod.fst = some text := by
  obtain ⟨hflag, htext⟩ := unrecognized_of_select hselect
  rw [h.unrecognized] at hflag
  rw [h.text] at htext
  cases hfirst : recorded.head? with
  | none => simp [hfirst] at hflag
  | some first => simpa [hfirst] using htext

theorem settle (h : Remembers recorded failures findings) :
    Remembers recorded failures findings.settle := by
  rw [Findings.settle]
  split
  · next hrejects =>
    refine ⟨h.unrecognized, h.text, h.blame, fun _ => rfl, fun _ => h.rejects_iff.mp hrejects,
      fun reason hreason => ⟨rfl, fun text htext => h.first_of_select ?_⟩⟩
    rw [← htext]
    exact Option.some.inj hreason
  · exact h

open Descent in
/-- Each parse of a line that fails adds its failure to what is remembered when the line is read. -/
theorem afterParses {line : List Char} {rest : List Token} {state : State}
    (h : Remembers recorded failures state.eventual) (hrests : state.Rests line rest)
    (count : Nat) :
    Remembers recorded
      (failures ++ (List.range count).filterMap fun count =>
        failure? (Descent.parse (state.afterParses count)).1)
      (state.afterParses count).eventual := by
  induction count with
  | zero => simpa [State.afterParses] using h
  | succ count ih =>
    obtain ⟨left, -, hleft⟩ := hrests.afterParses count
    obtain ⟨hok, herror⟩ := parse_unflagged hleft.lookahead
    rw [List.range_succ, List.filterMap_append, ← List.append_assoc]
    cases hresult : (Descent.parse (state.afterParses count)).1 with
    | ok parsed =>
      have hnext := ih.congr (hok parsed hresult)
      simpa [State.afterParses, hresult, failure?] using hnext
    | error blame =>
      have hread := Cursor.tokens_of_rest (hleft.of_error hresult).2
      have hnext := (ih.failAt blame).congr (herror blame hresult)
      rw [← State.eventual_of_read hread] at hnext
      simpa [State.afterParses, hresult, failure?] using hnext

theorem parse (h : Remembers recorded failures findings) (line : List Char) (more : Nat) :
    Remembers (recorded ++ (Operation.parse line more).recorded)
      (failures ++ (Operation.parse line more).failures findings)
      ((Operation.parse line more).apply findings) := by
  have hrests := Descent.State.rests_ofLine line findings
  have hstart : (Descent.State.ofReading (.ofLine line findings)).eventual =
      findings.recordFirst (Cursor.ofLine line).tokens := Reading.next_eventual _
  have hread := h.recordFirst (Cursor.ofLine line).tokens
  rw [← hstart] at hread
  have hlast := hread.afterParses hrests (more + 1)
  obtain ⟨left, hlength, hleft⟩ := hrests.afterParses (more + 1)
  rwa [Descent.State.eventual_of_read (hleft.read (hlength (Nat.succ_pos more)))] at hlast

theorem apply (h : Remembers recorded failures findings) (operation : Operation) :
    Remembers (recorded ++ operation.recorded) (failures ++ operation.failures findings)
      (operation.apply findings) := by
  cases operation with
  | record text span =>
    simpa [Operation.apply, Operation.recorded, Operation.failures] using h.record text span
  | failAt span =>
    simpa [Operation.apply, Operation.recorded, Operation.failures] using h.failAt span
  | select => simpa [Operation.apply, Operation.recorded, Operation.failures] using h
  | settle => simpa [Operation.apply, Operation.recorded, Operation.failures] using h.settle
  | next cursor =>
    have hfirst : (Operation.next cursor).apply findings =
        findings.recordFirst [cursor.next.1] := by
      rw [recordFirst_cons]
      exact Reading.next_findings _
    rw [hfirst]
    simpa [Operation.recorded, Operation.failures] using h.recordFirst [cursor.next.1]
  | drain cursor =>
    have hall : (Operation.drain cursor).apply findings = findings.recordFirst cursor.tokens :=
      Reading.drain_findings _
    rw [hall]
    simpa [Operation.recorded, Operation.failures] using h.recordFirst cursor.tokens
  | parse line more => exact h.parse line more

theorem after (h : Remembers recorded failures findings) (history : List Operation) :
    Remembers (recorded ++ history.flatMap Operation.recorded)
      (failures ++ findings.failuresIn history) (findings.after history) := by
  induction history generalizing recorded failures findings with
  | nil => simpa [failuresIn, Findings.after] using h
  | cons operation history ih =>
    simpa [failuresIn, Findings.after] using ih (h.apply operation)

theorem unrecognized_iff (h : Remembers recorded failures findings) :
    findings.unrecognized = true ↔ findings.unrecognizedText.isSome = true := by
  rw [h.unrecognized, h.text, Option.isSome_map]

theorem blamed_iff (h : Remembers recorded failures findings) :
    findings.blame.isSome = true ↔ findings.unrecognized = true ∨ findings.failed = true := by
  have hrejects := h.rejects_iff
  rw [rejects, Bool.or_eq_true, or_comm] at hrejects
  rw [h.blame, hrejects, Option.isSome_or, Bool.or_eq_true, Option.isSome_map]
  simp

theorem accepts_iff (h : Remembers recorded failures findings) :
    findings.reason? = none ↔ recorded = [] ∧ failures = [] := by
  have hrejects := h.rejects_iff
  rw [reason?]
  split
  · next hrejected => simpa [imp_iff_not_or] using hrejects.mp hrejected
  · next haccepted => simpa using mt hrejects.mpr haccepted

end Remembers

section Settle

variable {findings : Findings}

theorem settle_of_accepted (h : findings.reason? = none) : findings.settle = findings := by
  rw [reason?] at h
  rw [settle]
  split at h
  · simp at h
  · next haccepted => rw [if_neg haccepted]

theorem settle_of_rejected (h : findings.reason? ≠ none) :
    findings.reason? = some findings.select ∧ findings.settle.failed = true ∧
      findings.settle.reason = some findings.select := by
  rw [reason?] at h ⊢
  rw [settle]
  split
  · exact ⟨rfl, rfl, rfl⟩
  · next haccepted => rw [if_neg haccepted] at h; exact absurd rfl h

theorem settle_reason? : findings.settle.reason? = findings.reason? := by
  rw [reason?, reason?, settle_rejects, settle_select]

end Settle

/-- Whatever is done with findings that begin with none, the first unrecognized token is kept with
its span, and if there is none the first failure is blamed. There is a reason if and only if a token
was recorded or a failure marked; it is the one selected, and to settle it again changes nothing. -/
theorem history_tells (history : List Operation) :
    let findings := Findings.after {} history
    let recorded := history.flatMap Operation.recorded
    let failures := Findings.failuresIn {} history
    (findings.unrecognized = true ↔ findings.unrecognizedText.isSome = true) ∧
    (findings.blame.isSome = true ↔ findings.unrecognized = true ∨ findings.failed = true) ∧
    (∀ text span more, recorded = (text, span) :: more →
      findings.unrecognizedText = some text ∧ findings.blame = some span) ∧
    (recorded = [] → findings.unrecognizedText = none ∧ findings.blame = failures.head?) ∧
    (findings.reason.isSome = true → findings.failed = true) ∧
    (findings.reason? = none ↔ recorded = [] ∧ failures = []) ∧
    (findings.reason? = none → findings.settle = findings) ∧
    (findings.reason? ≠ none → findings.reason? = some findings.select ∧
      findings.settle.failed = true ∧ findings.settle.reason = some findings.select) ∧
    (∀ text, findings.select = .unrecognizedToken text ∨
        findings.reason = some (.unrecognizedToken text) →
      recorded.head?.map Prod.fst = some text) ∧
    findings.settle.settle = findings.settle ∧ findings.settle.reason? = findings.reason? := by
  intro findings recorded failures
  have h : Remembers recorded failures findings := Remembers.new.after history
  refine ⟨h.unrecognized_iff, h.blamed_iff, ?_, ?_, ?_, h.accepts_iff, settle_of_accepted,
    settle_of_rejected, ?_, settle_settle findings, settle_reason?⟩
  · intro text span more hrecorded
    rw [h.text, h.blame, hrecorded]
    exact ⟨rfl, rfl⟩
  · intro hrecorded
    rw [h.text, h.blame, hrecorded]
    exact ⟨rfl, rfl⟩
  · intro hreason
    obtain ⟨reason, hreason⟩ := Option.isSome_iff_exists.mp hreason
    exact (h.settled reason hreason).1
  · rintro text (hselect | hreason)
    · exact h.first_of_select hselect
    · exact (h.settled _ hreason).2 text rfl

/-- An unrecognized token is blamed in the place of a failure that was marked before it. -/
example : (Findings.after {} [.failAt (.single 4), .record ['@'] (.single 1),
    .record ['#'] (.single 3)]).blame = some (.single 1) := rfl

end Findings

end ArithLines
