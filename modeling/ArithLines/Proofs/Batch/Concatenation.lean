import ArithLines.Proofs.Batch.Account
import Mathlib.Data.List.Basic

/-! Runs over one input after another. What a run makes of a line depends on no other line, except
that the notice of a cut names the number of the line. -/

namespace ArithLines.Batch

section

variable (printer : Printer) (settings : Settings)

theorem entries_append {first : List UInt8} (h : Text.Complete first) (second : List UInt8) :
    entries settings (first ++ second) = entries settings first ++ entries settings second := by
  rw [entries, h.lines_append, List.map_append]
  rfl

theorem faultless_linesRead (bytes : List UInt8) :
    (faultless printer settings bytes).summary.linesRead = (entries settings bytes).length := by
  rw [faultless_summary, Summary.ofEntries, Summary.foldl_count_linesRead, Nat.zero_add]

theorem notices_append {first : List UInt8} (h : Text.Complete first) (second : List UInt8) :
    notices printer settings (first ++ second) = notices printer settings first ++
      (notices printer settings second).map
        (·.later (faultless printer settings first).summary.linesRead) := by
  rw [notices, entries_append settings h, noticesAfter_append, Nat.zero_add, notices, notices,
    later_noticesAfter, faultless_linesRead, Nat.add_zero]

/-! ### Lines by themselves -/

theorem entries_line {line : List UInt8} (h : Text.newline ∉ line) :
    entries settings (line ++ [Text.newline]) = [Entry.ofLine settings.lineLimit line] := by
  rw [entries, Text.lines_cons h]
  rfl

theorem output_lines (bytes : List UInt8) :
    (faultless printer settings bytes).output = (Text.lines bytes).flatMap fun line =>
      (faultless printer settings (line ++ [Text.newline])).output := by
  rw [faultless_output, entries, List.flatMap_map]
  refine List.flatMap_congr fun line hline => ?_
  rw [faultless_output, entries_line settings (Text.newline_not_mem_of_mem_lines hline),
    List.flatMap_singleton]

theorem notices_line {line : List UInt8} (h : Text.newline ∉ line) (before : Nat) :
    (notices printer settings (line ++ [Text.newline])).map (·.later before) =
      (Entry.ofLine settings.lineLimit line).notices printer settings (before + 1) := by
  rw [notices, entries_line settings h, later_noticesAfter, noticesAfter, noticesAfter,
    List.append_nil, Nat.add_zero]

theorem notices_lines (bytes : List UInt8) :
    notices printer settings bytes = ((Text.lines bytes).mapIdx fun before line =>
      (notices printer settings (line ++ [Text.newline])).map (·.later before)).flatten := by
  have hlines : ∀ (lines : List (List UInt8)) (others : Nat), (∀ line ∈ lines, Text.newline ∉ line) →
      noticesAfter printer settings others (lines.map (Entry.ofLine settings.lineLimit)) =
        (lines.mapIdx fun before line =>
          (notices printer settings (line ++ [Text.newline])).map
            (·.later (others + before))).flatten := by
    intro lines
    induction lines with
    | nil => exact fun _ _ => rfl
    | cons line lines ih =>
      intro others h
      rw [List.map_cons, noticesAfter, ih _ fun line hline => h line (by simp [hline]),
        List.mapIdx_cons, List.flatten_cons, notices_line printer settings (h line (by simp)),
        Nat.add_zero]
      simp only [Nat.add_assoc, Nat.add_comm 1]
  have hbytes := hlines (Text.lines bytes) 0 fun line hline =>
    Text.newline_not_mem_of_mem_lines hline
  simp only [Nat.zero_add] at hbytes
  exact hbytes

end

/-- A run over an input after another does what the two runs do, and what it does is put together
from the runs over each single line. -/
theorem faultless_append (printer : Printer) (settings : Settings) (first second : List UInt8)
    (h : Text.Complete first) :
    (faultless printer settings (first ++ second)).output =
        (faultless printer settings first).output ++ (faultless printer settings second).output ∧
      (faultless printer settings (first ++ second)).outcome =
        .ok ((faultless printer settings first).summary +
          (faultless printer settings second).summary) ∧
      (∀ bytes, (faultless printer settings bytes).errors =
        String.join ((notices printer settings bytes).map Notice.text)) ∧
      notices printer settings (first ++ second) = notices printer settings first ++
        (notices printer settings second).map
          (·.later (faultless printer settings first).summary.linesRead) ∧
      (∀ bytes, (faultless printer settings bytes).output = (Text.lines bytes).flatMap fun line =>
        (faultless printer settings (line ++ [Text.newline])).output) ∧
      ∀ bytes, notices printer settings bytes = ((Text.lines bytes).mapIdx fun before line =>
        (notices printer settings (line ++ [Text.newline])).map (·.later before)).flatten := by
  refine ⟨?_, ?_, faultless_errors printer settings, notices_append printer settings h second,
    output_lines printer settings, notices_lines printer settings⟩
  · rw [faultless_output, entries_append settings h, List.flatMap_append, faultless_output,
      faultless_output]
  · have hsummary : (faultless printer settings (first ++ second)).summary =
        (faultless printer settings first).summary +
          (faultless printer settings second).summary := by
      rw [faultless_summary, entries_append settings h, Summary.ofEntries_append, faultless_summary,
        faultless_summary]
    rw [Progress.outcome, faultless_fault, ← hsummary]
    rfl

/-- Lines cut to four bytes, with reports that give the message only: the second line is cut in
either run, and has its number from all the lines. -/
theorem faultless_append_cut :
    Text.Complete (Text.Utf8.encode "1 +\n".toList) ∧
      (faultless (·.label.message) { lineLimit := 4, diagnostics := true }
          (Text.Utf8.encode "1 +\nb=(c)".toList)).output =
        Text.Utf8.encode
          "1 + -- invalid: incomplete expression\nb=(c -- invalid: unbalanced parentheses\n".toList ∧
      notices (·.label.message) { lineLimit := 4, diagnostics := true }
          (Text.Utf8.encode "b=(c)".toList) = [.cut 1, .report "unbalanced parentheses"] ∧
      notices (·.label.message) { lineLimit := 4, diagnostics := true }
          (Text.Utf8.encode "1 +\nb=(c)".toList) =
        [.report "incomplete expression", .cut 2, .report "unbalanced parentheses"] := by
  have hcomplete : Text.Complete (Text.Utf8.encode "1 +\n".toList) := .inr (by decide +kernel)
  obtain ⟨houtput, -, -, hnotices, -⟩ :=
    faultless_append (·.label.message) { lineLimit := 4, diagnostics := true }
      (Text.Utf8.encode "1 +\n".toList) (Text.Utf8.encode "b=(c)".toList) hcomplete
  rw [← Text.Utf8.encode_append] at houtput hnotices
  refine ⟨hcomplete, houtput.trans ?_, ?_, hnotices.trans ?_⟩
  · decide +kernel
  · decide +kernel
  · decide +kernel

end ArithLines.Batch
