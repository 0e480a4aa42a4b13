import ArithLines.Batch.Run
import ArithLines.Proofs.Text.Lines

/-! What a run comes to, by the entries of the lines that it reads: what is written, what is given
notice of, and the summary. Main statements: as long as the sink has room a run does the same to it
as one that writes everything at once, and where the room ends it has written all that fits. -/

namespace ArithLines.Batch

/-- What is given notice of: a line that is cut, by its number, and a line that is rejected, by its
report. -/
inductive Notice where
  | cut (number : Nat)
  | report (text : String)
deriving DecidableEq

namespace Notice

def text : Notice → String
  | cut number => s!"Warning: Line {number} exceeds buffer size\n"
  | report text => text

/-- The notice on the same line when more lines come before it. -/
def later (lines : Nat) : Notice → Notice
  | cut number => cut (lines + number)
  | report text => report text

end Notice

namespace Entry

variable (printer : Printer) (settings : Settings)

/-- The notices on the line of that number. -/
def notices (entry : Entry) (number : Nat) : List Notice :=
  (if entry.isTruncated then [.cut number] else []) ++ (entry.reports printer settings).map .report

theorem text_notices (entry : Entry) (number : Nat) :
    (entry.notices printer settings number).map Notice.text =
      entry.warnings number ++ entry.reports printer settings := by
  have hreports : ∀ reports : List String, (reports.map Notice.report).map Notice.text = reports := by
    intro reports
    rw [List.map_map]
    exact List.map_id reports
  rw [notices, List.map_append, hreports, warnings]
  split <;> rfl

theorem later_notices (entry : Entry) (lines number : Nat) :
    (entry.notices printer settings number).map (·.later lines) =
      entry.notices printer settings (lines + number) := by
  rw [notices, List.map_append, List.map_map, notices]
  congr 1
  · split <;> rfl

end Entry

section Lines

variable (printer : Printer) (settings : Settings)

/-- The notices on lines of which the first comes after so many others. -/
def noticesAfter (before : Nat) : List Entry → List Notice
  | [] => []
  | entry :: entries =>
    entry.notices printer settings (before + 1) ++ noticesAfter (before + 1) entries

theorem noticesAfter_append (before : Nat) (entries more : List Entry) :
    noticesAfter printer settings before (entries ++ more) =
      noticesAfter printer settings before entries ++
        noticesAfter printer settings (before + entries.length) more := by
  induction entries generalizing before with
  | nil => rfl
  | cons entry entries ih =>
    rw [List.cons_append, noticesAfter, ih, noticesAfter, List.append_assoc, List.length_cons]
    congr 3
    omega

theorem later_noticesAfter (lines before : Nat) (entries : List Entry) :
    (noticesAfter printer settings before entries).map (·.later lines) =
      noticesAfter printer settings (lines + before) entries := by
  induction entries generalizing before with
  | nil => rfl
  | cons entry entries ih =>
    rw [noticesAfter, List.map_append, ih, Entry.later_notices, noticesAfter, Nat.add_assoc]

end Lines

/-! ### Summaries -/

namespace Summary

/-- Summaries add up field by field. -/
instance : Add Summary where
  add first second :=
    { linesRead := first.linesRead + second.linesRead
      valid := first.valid + second.valid
      invalid := first.invalid + second.invalid
      skipped := first.skipped + second.skipped
      truncated := first.truncated + second.truncated }

theorem add_eq (first second : Summary) :
    first + second =
      { linesRead := first.linesRead + second.linesRead
        valid := first.valid + second.valid
        invalid := first.invalid + second.invalid
        skipped := first.skipped + second.skipped
        truncated := first.truncated + second.truncated } := rfl

def ofEntries (entries : List Entry) : Summary := entries.foldl count {}

theorem add_count (first second : Summary) (entry : Entry) :
    (first + second).count entry = first + second.count entry := by
  simp only [count, add_eq, Nat.add_assoc]

theorem foldl_count (summary : Summary) (entries : List Entry) :
    entries.foldl count summary = summary + ofEntries entries := by
  have hadd (second : Summary) :
      entries.foldl count (summary + second) = summary + entries.foldl count second := by
    induction entries generalizing second with
    | nil => rfl
    | cons entry entries ih => rw [List.foldl_cons, add_count, ih, List.foldl_cons]
  exact hadd {}

theorem ofEntries_append (entries more : List Entry) :
    ofEntries (entries ++ more) = ofEntries entries + ofEntries more := by
  rw [ofEntries, List.foldl_append, foldl_count]
  rfl

theorem foldl_count_linesRead (summary : Summary) (entries : List Entry) :
    (entries.foldl count summary).linesRead = summary.linesRead + entries.length := by
  induction entries generalizing summary with
  | nil => rfl
  | cons entry entries ih =>
    rw [List.foldl_cons, ih, count_linesRead, List.length_cons]
    omega

end Summary

/-! ### Sinks -/

namespace Sink

theorem appendList_append (written : Array UInt8) (bytes more : List UInt8) :
    written ++ (bytes ++ more) = written ++ bytes ++ more := by
  rw [← Array.toList_inj]
  simp

variable (sink : Sink) (bytes more : List UInt8)

theorem write_nil : sink.write [] = sink := by
  obtain ⟨limit, flushFailure, written⟩ := sink
  cases limit <;> simp [write, Limit.spend]

theorem overflow?_nil : sink.overflow? [] = none := by
  simp [overflow?]

theorem write_append : sink.write (bytes ++ more) = (sink.write bytes).write more := by
  obtain ⟨limit, flushFailure, written⟩ := sink
  cases limit with
  | none => simp [write, appendList_append]
  | some limit =>
    have hroom : limit.room - (bytes ++ more).length =
        limit.room - bytes.length - more.length := by
      rw [List.length_append]
      omega
    simp only [write, Option.map_some, Option.elim_some, Limit.spend, hroom, List.take_append,
      appendList_append]

/-- Of two pieces the first that does not fit is at fault. -/
theorem overflow?_append :
    sink.overflow? (bytes ++ more) =
      (sink.overflow? bytes).or ((sink.write bytes).overflow? more) := by
  obtain ⟨limit, flushFailure, written⟩ := sink
  cases limit with
  | none => rfl
  | some limit =>
    simp only [overflow?, write, Limit.spend, Option.map_some, Option.filter_some,
      List.length_append, decide_eq_true_eq]
    by_cases hfits : limit.room < bytes.length
    · have hboth : limit.room < bytes.length + more.length := by omega
      simp [hfits, hboth]
    · have hmore : limit.room < bytes.length + more.length ↔
          limit.room - bytes.length < more.length := by omega
      simp only [hfits, hmore, if_false]
      split <;> rfl

variable {sink bytes}

/-- Nothing is written any more once something did not fit. -/
theorem write_append_of_overflow {fault : Fault} (h : sink.overflow? bytes = some fault) :
    sink.write (bytes ++ more) = sink.write bytes := by
  obtain ⟨limit, hoverflow, -⟩ := Option.map_eq_some_iff.mp h
  obtain ⟨hlimit, hroom⟩ := Option.filter_eq_some_iff.mp hoverflow
  have hnone : limit.room - bytes.length = 0 :=
    Nat.sub_eq_zero_of_le (Nat.le_of_lt (of_decide_eq_true hroom))
  rw [write_append]
  simp [write, hlimit, Limit.spend, hnone]

end Sink

/-! ### Runs -/

namespace Progress

section Recording

variable (printer : Printer) (settings : Settings)

/-- What the entries add to a progress as long as there is room for them. -/
structure Advances (before : Progress) (entries : List Entry) (after : Progress) : Prop where
  fault : after.fault = none
  summary : after.summary = entries.foldl Summary.count before.summary
  sink : after.sink = before.sink.write (entries.flatMap Entry.output)
  notices : after.notices.toList = before.notices.toList ++
    (noticesAfter printer settings before.summary.linesRead entries).map Notice.text

/-- What is left when there is not room for all of the entries. -/
structure Breaks (before : Progress) (entries : List Entry) (fault : Fault) (after : Progress) :
    Prop where
  fault : after.fault = some fault
  sink : after.sink = before.sink.write (entries.flatMap Entry.output)
  notices : after.notices.toList <+: before.notices.toList ++
    (noticesAfter printer settings before.summary.linesRead entries).map Notice.text

variable {printer settings} {before middle after : Progress} {entries more : List Entry}
  {fault : Fault}

theorem Advances.refl (h : before.fault = none) : Advances printer settings before [] before :=
  ⟨h, rfl, (before.sink.write_nil).symm, (List.append_nil _).symm⟩

theorem notices_record (before : Progress) (entry : Entry) :
    (before.record printer settings entry).notices.toList = before.notices.toList ++
      (noticesAfter printer settings before.summary.linesRead [entry]).map Notice.text := by
  rw [noticesAfter, noticesAfter, List.append_nil, Entry.text_notices, record]
  simp

theorem record_advances {entry : Entry} (h : before.sink.overflow? entry.output = none) :
    Advances printer settings before [entry] (before.record printer settings entry) := by
  refine ⟨h, rfl, ?_, notices_record before entry⟩
  rw [List.flatMap_singleton]
  rfl

theorem record_breaks {entry : Entry} (h : before.sink.overflow? entry.output = some fault) :
    Breaks printer settings before [entry] fault (before.record printer settings entry) := by
  refine ⟨h, ?_, [], (List.append_nil _).trans (notices_record before entry)⟩
  rw [List.flatMap_singleton]
  rfl

theorem Advances.linesRead (h : Advances printer settings before entries middle) :
    middle.summary.linesRead = before.summary.linesRead + entries.length := by
  rw [h.summary, Summary.foldl_count_linesRead]

theorem Advances.trans (h : Advances printer settings before entries middle)
    (hmore : Advances printer settings middle more after) :
    Advances printer settings before (entries ++ more) after := by
  refine ⟨hmore.fault, ?_, ?_, ?_⟩
  · rw [hmore.summary, h.summary, List.foldl_append]
  · rw [hmore.sink, h.sink, List.flatMap_append, Sink.write_append]
  · rw [hmore.notices, h.notices, h.linesRead, noticesAfter_append, List.map_append,
      List.append_assoc]

theorem Advances.breaks (h : Advances printer settings before entries middle)
    (hmore : Breaks printer settings middle more fault after) :
    Breaks printer settings before (entries ++ more) fault after := by
  refine ⟨hmore.fault, ?_, ?_⟩
  · rw [hmore.sink, h.sink, List.flatMap_append, Sink.write_append]
  · rw [noticesAfter_append, List.map_append, ← List.append_assoc, ← h.notices, ← h.linesRead]
    exact hmore.notices

/-- After a line for which there was no room no other line changes anything. -/
theorem Breaks.append (h : Breaks printer settings before entries fault after)
    (hoverflow : before.sink.overflow? (entries.flatMap Entry.output) = some fault)
    (more : List Entry) : Breaks printer settings before (entries ++ more) fault after := by
  refine ⟨h.fault, ?_, h.notices.trans ?_⟩
  · rw [h.sink, List.flatMap_append, Sink.write_append_of_overflow _ hoverflow]
  · rw [noticesAfter_append, List.map_append, ← List.append_assoc]
    exact List.prefix_append _ _

theorem foldl_line_of_fault (h : before.fault.isSome = true) (lines : List (List UInt8)) :
    lines.foldl (Progress.line printer settings) before = before := by
  induction lines with
  | nil => rfl
  | cons line lines ih => rw [List.foldl_cons, line_of_fault h, ih]

/-- All lines are recorded if there is room for what they put out, and otherwise those up to the
first for which there is none. -/
theorem foldl_line (printer : Printer) (settings : Settings) (lines : List (List UInt8))
    (before : Progress) (h : before.fault = none) :
    let entries := lines.map (Entry.ofLine settings.lineLimit)
    let after := lines.foldl (Progress.line printer settings) before
    let overflow := before.sink.overflow? (entries.flatMap Entry.output)
    (overflow = none → Advances printer settings before entries after) ∧
      ∀ fault, overflow = some fault → Breaks printer settings before entries fault after := by
  induction lines generalizing before with
  | nil =>
    have hnil := before.sink.overflow?_nil
    exact ⟨fun _ => .refl h, fun fault hfault => absurd (hnil.symm.trans hfault) (by simp)⟩
  | cons line lines ih =>
    -- The lines after the first one see what room it left, and nothing of them is recorded if it did
    -- not fit itself.
    have hline : before.line printer settings line =
        before.record printer settings (.ofLine settings.lineLimit line) := by
      rw [Progress.line, h]
      rfl
    dsimp only at ih ⊢
    simp only [List.map_cons, List.flatMap_cons, List.foldl_cons, Sink.overflow?_append, hline]
    cases hoverflow : before.sink.overflow? (Entry.ofLine settings.lineLimit line).output with
    | none =>
      have hrecord : Advances printer settings before _ _ := record_advances hoverflow
      have hrest := ih _ hrecord.fault
      rw [hrecord.sink, List.flatMap_singleton] at hrest
      rw [Option.none_or]
      exact ⟨fun hnone => hrecord.trans (hrest.1 hnone),
        fun fault hfault => hrecord.breaks (hrest.2 fault hfault)⟩
    | some fault =>
      have hrecord : Breaks printer settings before _ fault _ := record_breaks hoverflow
      have hall : before.sink.overflow?
          ([Entry.ofLine settings.lineLimit line].flatMap Entry.output) = some fault := by
        rwa [List.flatMap_singleton]
      rw [foldl_line_of_fault (by rw [hrecord.fault]; rfl), Option.some_or]
      refine ⟨fun hnone => absurd hnone (by simp), ?_⟩
      rintro _ ⟨⟩
      exact hrecord.append hall _

end Recording

/-- What has gone to the sink. -/
def output (progress : Progress) : List UInt8 := progress.sink.written.toList

/-- What has gone to the stream of notices. -/
def errors (progress : Progress) : String := String.join progress.notices.toList

/-- What a run returns. -/
def outcome (progress : Progress) : Except Fault Summary :=
  progress.fault.elim (.ok progress.summary) .error

end Progress

/-! ### Runs without a fault -/

def entries (settings : Settings) (bytes : List UInt8) : List Entry :=
  (Text.lines bytes).map (Entry.ofLine settings.lineLimit)

section Faultless

variable (printer : Printer) (settings : Settings) (bytes : List UInt8)

/-- The notices that a run over the bytes gives if it comes to its end. -/
def notices : List Notice := noticesAfter printer settings 0 (entries settings bytes)

/-- The run over an input and a sink of which neither fails. -/
def faultless : Progress := run printer settings { bytes } {}

theorem faultless_advances :
    Progress.Advances printer settings { sink := {} } (entries settings bytes)
      (faultless printer settings bytes) := by
  have hlines := Progress.foldl_line printer settings (Text.lines bytes) { sink := {} } rfl
  have hfold := hlines.1 rfl
  refine ⟨?_, hfold.summary, hfold.sink, hfold.notices⟩
  rw [faultless, run, Input.lines]
  simp [Progress.finish, hfold.fault, hfold.sink]

theorem faultless_fault : (faultless printer settings bytes).fault = none :=
  (faultless_advances printer settings bytes).fault

theorem faultless_summary :
    (faultless printer settings bytes).summary = Summary.ofEntries (entries settings bytes) :=
  (faultless_advances printer settings bytes).summary

theorem faultless_outcome :
    (faultless printer settings bytes).outcome =
      .ok (faultless printer settings bytes).summary := by
  rw [Progress.outcome, faultless_fault]
  rfl

theorem faultless_output :
    (faultless printer settings bytes).output = (entries settings bytes).flatMap Entry.output := by
  rw [Progress.output, (faultless_advances printer settings bytes).sink, Sink.write_written]
  rfl

theorem faultless_notices :
    (faultless printer settings bytes).notices.toList =
      (notices printer settings bytes).map Notice.text :=
  (faultless_advances printer settings bytes).notices

theorem faultless_errors :
    (faultless printer settings bytes).errors =
      String.join ((notices printer settings bytes).map Notice.text) := by
  rw [Progress.errors, faultless_notices]

end Faultless

end ArithLines.Batch
