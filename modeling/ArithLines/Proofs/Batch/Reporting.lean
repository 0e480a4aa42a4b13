import ArithLines.Proofs.Batch.Counts
import ArithLines.Proofs.Label

/-! What a run says beside what it writes. Main statement: whether reports are asked for, and under
which name, changes nothing but whether the report of each rejected line is given, in the place of
that line among the warnings. It holds for every printer, so it says which reports are given. -/

namespace ArithLines

/-- The report shows the line under the name, says what is wrong at which of its characters, and gives
the advice that goes with it. -/
structure Report.Shows (report : Report) (reason : Reason) (span : Span) (line : List Char)
    (name : String) : Prop where
  name_eq : report.name = name
  line_eq : report.line = line
  place : report.label.span = span.clip line.length ∧ report.position = report.label.span.start
  message : report.heading.sentence = reason.message ∧ report.label.message = reason.message
  colour : report.heading.colour = reason.colour ∧ report.label.colour = reason.colour
  help : report.note.sentence = reason.help

theorem Reason.report_shows (reason : Reason) (span : Span) (line : List Char) (name : String) :
    (reason.report span line name).Shows reason span line name :=
  ⟨rfl, rfl, ⟨rfl, rfl⟩, ⟨rfl, rfl⟩, ⟨rfl, rfl⟩, rfl⟩

/-- What a line is rejected for, and where. -/
def Verdict.blame? (verdict : Verdict) : Option (Reason × Span) :=
  verdict.reason.bind fun reason => verdict.span.map fun span => (reason, span)

theorem blame?_validate_iff {line : List Char} {reason : Reason} {span : Span} :
    (validate line).blame? = some (reason, span) ↔ validate line = .reject reason (some span) := by
  rcases accept_or_reject line with haccept | ⟨first, other, hreject⟩
  · simp [haccept, Verdict.accept, Verdict.reject, Verdict.blame?]
  · simp [hreject, Verdict.reject, Verdict.blame?]

theorem rejected_iff_blame? (line : List Char) :
    (validate line).accepted = false ↔ (validate line).blame?.isSome = true := by
  rcases accept_or_reject line with haccept | ⟨reason, span, hreject⟩
  · simp [haccept, Verdict.accept, Verdict.blame?]
  · simp [hreject, Verdict.reject, Verdict.blame?]

end ArithLines

namespace ArithLines.Batch

/-- What there is to say of the line of that number: that it is cut, or that what is left of it is
rejected for a reason at a place. -/
inductive Remark where
  | cut (number : Nat)
  | rejection (number : Nat) (line : List Char) (reason : Reason) (span : Span)

namespace Remark

def number : Remark → Nat
  | cut number | rejection number .. => number

def isRejection : Remark → Bool
  | cut _ => false
  | rejection .. => true

/-- The remark in words, when the lines come from the source of that name. -/
def text (printer : Printer) (name : String) : Remark → String
  | cut number => s!"Warning: Line {number} exceeds buffer size\n"
  | rejection _ line reason span => printer (reason.report span line name)

/-- A remark comes before those on later lines, and the cut of a line before its rejection. -/
inductive Before : Remark → Remark → Prop
  | line {first second : Remark} : first.number < second.number → Before first second
  | cut {number : Nat} {line : List Char} {reason : Reason} {span : Span} :
      Before (.cut number) (.rejection number line reason span)

end Remark

namespace Entry

variable (entry : Entry) (number : Nat)

def blame? : Option (Reason × Span) := entry.examination.bind (·.verdict.blame?)

def remarks : List Remark :=
  (if entry.isTruncated then [.cut number] else []) ++
    entry.blame?.toList.map fun blame => .rejection number entry.text blame.1 blame.2

variable {entry number} in
theorem mem_remarks_iff {remark : Remark} : remark ∈ entry.remarks number ↔
    remark = .cut number ∧ entry.isTruncated = true ∨
    ∃ reason span, entry.blame? = some (reason, span) ∧
      remark = .rejection number entry.text reason span := by
  rw [remarks, List.mem_append]
  apply or_congr
  · split <;> simp_all
  · simp [eq_comm]

variable {entry number} in
theorem number_of_mem_remarks {remark : Remark} (h : remark ∈ entry.remarks number) :
    remark.number = number := by
  rcases mem_remarks_iff.mp h with ⟨rfl, -⟩ | ⟨_, _, -, rfl⟩ <;> rfl

theorem remarks_pairwise : (entry.remarks number).Pairwise Remark.Before := by
  rw [remarks]
  cases entry.blame? with
  | none => split <;> simp
  | some blame =>
    split
    · exact List.pairwise_pair.mpr .cut
    · exact List.pairwise_singleton _ _

theorem countP_remarks : (entry.remarks number).countP Remark.isRejection =
    if entry.blame?.isSome then 1 else 0 := by
  rw [remarks, List.countP_append]
  cases entry.blame? <;> split <;> rfl

/-! ### The entry of a line -/

section OfLine

variable (limit : Nat) (bytes : List UInt8)

theorem blame?_ofLine : (ofLine limit bytes).blame? =
    if (ofLine limit bytes).text = [] then none
    else (validate (ofLine limit bytes).text).blame? := by
  rw [blame?, examination_ofLine]
  by_cases h : (ofLine limit bytes).text = []
  · rw [if_pos h, if_pos h, Option.bind_none]
  · rw [if_neg h, if_neg h, Option.bind_some, validate]

theorem isSome_blame?_ofLine : (ofLine limit bytes).blame?.isSome =
    decide ((ofLine limit bytes).accepted? = some false) := by
  rw [blame?_ofLine, accepted?_ofLine, Bool.eq_iff_iff]
  by_cases h : (ofLine limit bytes).text = []
  · simp [h]
  · simp [h, rejected_iff_blame?]

/-- A line has a report if it is rejected and reports are wanted. -/
theorem reports_ofLine (printer : Printer) (settings : Settings) :
    (ofLine limit bytes).reports printer settings =
      if settings.diagnostics then
        (ofLine limit bytes).blame?.toList.map fun blame =>
          printer (blame.1.report blame.2 (ofLine limit bytes).text settings.source.name)
      else [] := by
  rw [reports, examination_ofLine, blame?_ofLine]
  generalize (ofLine limit bytes).text = text
  by_cases htext : text = []
  · simp [htext]
  · rw [if_neg htext, if_neg htext, Option.elim_some, ← validate]
    rcases accept_or_reject text with haccept | ⟨reason, span, hreject⟩
    · simp [haccept, Verdict.accept, Verdict.blame?]
    · simp [hreject, Verdict.reject, Verdict.blame?, Verdict.report?]

/-- The notices on a line are the remarks on it, without its rejection if no reports are wanted. -/
theorem text_notices_ofLine (printer : Printer) (settings : Settings) (number : Nat) :
    ((ofLine limit bytes).notices printer settings number).map Notice.text =
      (((ofLine limit bytes).remarks number).filter fun remark =>
        settings.diagnostics || !remark.isRejection).map
          (Remark.text printer settings.source.name) := by
  rw [text_notices, reports_ofLine, remarks, List.filter_append, List.map_append, warnings]
  generalize ofLine limit bytes = entry
  congr 1
  · split
    · simp [Remark.isRejection, Remark.text]
    · rfl
  · cases entry.blame? <;> cases settings.diagnostics <;> simp [Remark.isRejection, Remark.text]

end OfLine

end Entry

theorem text_noticesAfter (printer : Printer) (settings : Settings) (before : Nat)
    (lines : List (List UInt8)) :
    let entries := lines.map (Entry.ofLine settings.lineLimit)
    (noticesAfter printer settings before entries).map Notice.text =
      ((numbered Entry.remarks before entries).filter fun remark =>
        settings.diagnostics || !remark.isRejection).map
          (Remark.text printer settings.source.name) := by
  induction lines generalizing before with
  | nil => rfl
  | cons line lines ih =>
    dsimp only at ih ⊢
    rw [List.map_cons, noticesAfter, List.map_append, ih, Entry.text_notices_ofLine, numbered,
      List.filter_append, List.map_append]

/-- The remarks on the lines of an input. -/
def remarks (settings : Settings) (bytes : List UInt8) : List Remark :=
  numbered Entry.remarks 0 (entries settings bytes)

section Runs

variable (settings : Settings) (bytes : List UInt8)

theorem mem_remarks_iff {remark : Remark} : remark ∈ remarks settings bytes ↔
    ∃ (index : Nat) (line : List UInt8), (Text.lines bytes)[index]? = some line ∧
      remark ∈ (Entry.ofLine settings.lineLimit line).remarks (index + 1) := by
  rw [remarks, mem_numbered_iff]
  simp only [entries, List.getElem?_map, Option.map_eq_some_iff, Nat.zero_add]
  constructor
  · rintro ⟨index, _, ⟨line, hline, rfl⟩, hremark⟩
    exact ⟨index, line, hline, hremark⟩
  · rintro ⟨index, line, hline, hremark⟩
    exact ⟨index, _, ⟨line, hline, rfl⟩, hremark⟩

theorem cut_mem_remarks_iff {number : Nat} : .cut number ∈ remarks settings bytes ↔
    ∃ index line, (Text.lines bytes)[index]? = some line ∧ number = index + 1 ∧
      settings.lineLimit < Text.Utf8.size (lineText line) := by
  simp [mem_remarks_iff, Entry.mem_remarks_iff, Entry.isTruncated_ofLine_iff]

theorem rejection_mem_remarks_iff {number : Nat} {text : List Char} {reason : Reason}
    {span : Span} :
    .rejection number text reason span ∈ remarks settings bytes ↔
    ∃ index line, (Text.lines bytes)[index]? = some line ∧ number = index + 1 ∧
      Leaves settings.lineLimit line text ∧ text ≠ [] ∧
      validate text = .reject reason (some span) := by
  rw [mem_remarks_iff]
  refine exists_congr fun index => exists_congr fun line => and_congr_right fun _ => ?_
  simp only [Entry.mem_remarks_iff, Entry.leaves_iff, Entry.blame?_ofLine, reduceCtorEq, false_and,
    false_or, Remark.rejection.injEq, Option.ite_none_left_eq_some, blame?_validate_iff]
  constructor
  · rintro ⟨_, _, ⟨htext, hreject⟩, rfl, rfl, rfl, rfl⟩
    exact ⟨rfl, rfl, htext, hreject⟩
  · rintro ⟨rfl, rfl, htext, hreject⟩
    exact ⟨reason, span, ⟨htext, hreject⟩, rfl, rfl, rfl, rfl⟩

theorem countP_remarks (printer : Printer) : (remarks settings bytes).countP Remark.isRejection =
    (faultless printer settings bytes).summary.invalid := by
  rw [remarks, faultless_summary, Summary.ofEntries_eq,
    countP_numbered _ (fun entry number => entry.countP_remarks number) 0]
  refine List.countP_congr fun entry hentry => ?_
  obtain ⟨line, -, rfl⟩ := List.mem_map.mp hentry
  rw [Entry.isSome_blame?_ofLine]

theorem remarks_pairwise : (remarks settings bytes).Pairwise Remark.Before :=
  numbered_pairwise _ (fun _ _ _ => Entry.number_of_mem_remarks) (fun _ _ => .line)
    Entry.remarks_pairwise 0 _

theorem notices_eq (printer : Printer) : (faultless printer settings bytes).notices.toList =
    ((remarks settings bytes).filter fun remark =>
      settings.diagnostics || !remark.isRejection).map
        (Remark.text printer settings.source.name) := by
  rw [faultless_notices, notices, remarks, entries, text_noticesAfter]

end Runs

/-- What is written and what is counted depends neither on the source nor on whether reports are
wanted. There is a remark on each line that is cut and on each that is rejected, in the order of the
lines, and with it the reason and the span that the report of the line is about. Without reports the
cuts are all that is given notice of, and with them every remark is. -/
theorem faultless_reporting (settings : Settings) (bytes : List UInt8) :
    ∃ remarks : List Remark,
      remarks.Pairwise Remark.Before ∧
      (∀ number, .cut number ∈ remarks ↔
        ∃ index line, (Text.lines bytes)[index]? = some line ∧ number = index + 1 ∧
          settings.lineLimit < Text.Utf8.size (lineText line)) ∧
      (∀ number text reason span, .rejection number text reason span ∈ remarks ↔
        ∃ index line, (Text.lines bytes)[index]? = some line ∧ number = index + 1 ∧
          Leaves settings.lineLimit line text ∧ text ≠ [] ∧
          validate text = .reject reason (some span)) ∧
      (∀ text, (validate text).accepted = false → ∃ reason span,
        validate text = .reject reason (some span) ∧ ∀ name,
          (validate text).report? text name = some (reason.report span text name) ∧
          (reason.report span text name).Shows reason span text name) ∧
      ∀ printer source diagnostics,
        let plain := faultless printer settings bytes
        let progress := faultless printer { settings with source, diagnostics } bytes
        let said := if diagnostics then remarks else remarks.filter (!·.isRejection)
        progress.output = plain.output ∧
        plain.outcome = .ok plain.summary ∧ progress.outcome = .ok plain.summary ∧
        remarks.countP Remark.isRejection = plain.summary.invalid ∧
        progress.notices.toList = said.map (Remark.text printer source.name) ∧
        progress.errors = String.join (said.map (Remark.text printer source.name)) := by
  refine ⟨remarks settings bytes, remarks_pairwise settings bytes,
    fun _ => cut_mem_remarks_iff settings bytes,
    fun _ _ _ _ => rejection_mem_remarks_iff settings bytes, fun text hrejected => ?_, ?_⟩
  · rcases accept_or_reject text with haccept | ⟨reason, span, hreject⟩
    · rw [haccept] at hrejected
      cases hrejected
    · refine ⟨reason, span, hreject, fun name => ⟨?_, reason.report_shows span text name⟩⟩
      rw [hreject, Verdict.report?_reject]
  · intro printer source diagnostics plain progress said
    have hsaid : ((remarks settings bytes).filter fun remark =>
        diagnostics || !remark.isRejection) = said := by
      cases diagnostics with
      | true => exact List.filter_eq_self.mpr fun _ _ => rfl
      | false => rfl
    have hnotices : progress.notices.toList = said.map (Remark.text printer source.name) :=
      (notices_eq _ bytes printer).trans (congrArg (List.map _) hsaid)
    have hsummary : progress.summary = plain.summary := by
      rw [faultless_summary, faultless_summary]
      rfl
    refine ⟨?_, faultless_outcome printer settings bytes, ?_, countP_remarks settings bytes printer,
      hnotices, ?_⟩
    · rw [faultless_output, faultless_output]
      rfl
    · rw [← hsummary]
      exact faultless_outcome printer _ bytes
    · rw [Progress.errors, hnotices]

/-- The first line is cut and what is left of it is rejected. The third one is rejected too. -/
example : (faultless (·.label.message) { lineLimit := 3, diagnostics := true }
    (Text.Utf8.encode "a + b\n\n1 2".toList)).notices =
      #["Warning: Line 1 exceeds buffer size\n", "incomplete expression",
        "unexpected trailing input"] := by
  decide +kernel

end ArithLines.Batch
