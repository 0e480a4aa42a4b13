import ArithLines.Proofs.Batch.Counts

/-! Runs over inputs whose lines are cut beforehand. Main statement: a run that cuts lines comes to the
same as one over lines that are cut already, and no line that it writes is longer than the limit. -/

namespace ArithLines.Batch

open Text (newline LongestWithin)
open Text.Utf8 (encode size)

/-- A piece that is cut to a limit fits into any that is not lower. -/
theorem size_trimEnd_cut_le {limit wide : Nat} (hwide : limit ≤ wide) (text : List Char) :
    size (Text.trimEnd isLineEnd (Text.cut limit text)) ≤ wide := by
  have htrim := Text.size_le_of_prefix (Text.trimEnd_prefix isLineEnd (Text.cut limit text))
  have hcut := (Text.longestWithin_cut limit text).size_le
  omega

/-- The lines of an input, cut to the limit. -/
def cutLines (limit : Nat) (bytes : List UInt8) : List (List Char) :=
  (Text.lines bytes).map fun line => Text.cut limit (lineText line)

/-- The bytes of lines, each of them ended. -/
def ended (lines : List (List Char)) : List UInt8 := (lines.map encode).flatMap (· ++ [newline])

section Input

variable {settings : Settings} {wide : Nat} (bytes : List UInt8)

theorem forall₂_longestWithin_iff (limit : Nat) {pieces : List (List Char)} :
    List.Forall₂ (fun line piece => LongestWithin limit (lineText line) piece) (Text.lines bytes)
      pieces ↔ cutLines limit bytes = pieces := by
  simp only [Text.longestWithin_iff]
  rw [← List.forall₂_map_left_iff, List.forall₂_eq_eq_eq]
  exact Iff.rfl

theorem lines_ended_cutLines (limit : Nat) :
    Text.lines (ended (cutLines limit bytes)) = (cutLines limit bytes).map encode := by
  apply Text.lines_flatMap
  intro piece hpiece
  rw [cutLines, List.map_map] at hpiece
  obtain ⟨line, hline, rfl⟩ := List.mem_map.mp hpiece
  rw [Function.comp_apply, Text.Utf8.newline_mem_encode_iff]
  intro hmem
  exact newline_not_mem_lineText (Text.newline_not_mem_of_mem_lines hline)
    ((Text.cut_prefix limit _).subset hmem)

theorem entries_ended_cutLines (settings : Settings) (limit : Nat) :
    entries settings (ended (cutLines limit bytes)) = (Text.lines bytes).map fun line =>
      Entry.ofLine settings.lineLimit (encode (Text.cut limit (lineText line))) := by
  rw [entries, lines_ended_cutLines, cutLines, List.map_map, List.map_map]
  rfl

/-- What is left of the lines is the same, whether they are cut in the run or before it. -/
theorem texts_ended_cutLines (hwide : settings.lineLimit ≤ wide) :
    texts { settings with lineLimit := wide } (ended (cutLines settings.lineLimit bytes)) =
      texts settings bytes := by
  rw [texts, entries_ended_cutLines, texts, entries, List.map_map, List.map_map]
  refine List.map_congr_left fun line _ => ?_
  exact Entry.text_ofLine_encode (size_trimEnd_cut_le hwide _)

theorem countP_isTruncated_ended_cutLines (hwide : settings.lineLimit ≤ wide) :
    (entries { settings with lineLimit := wide } (ended (cutLines settings.lineLimit bytes))).countP
      Entry.isTruncated = 0 := by
  rw [entries_ended_cutLines, List.countP_eq_zero]
  intro entry hentry
  obtain ⟨line, -, rfl⟩ := List.mem_map.mp hentry
  rw [Bool.not_eq_true]
  exact Entry.isTruncated_ofLine_encode (size_trimEnd_cut_le hwide _)

end Input

theorem size_le_of_mem_checked {settings : Settings} {bytes : List UInt8} {line : List Char}
    (h : line ∈ checked settings bytes) : size line ≤ settings.lineLimit := by
  rw [checked_eq] at h
  obtain ⟨entry, hentry, rfl⟩ := List.mem_map.mp (List.mem_filter.mp h).1
  obtain ⟨read, -, rfl⟩ := List.mem_map.mp hentry
  rw [Entry.text_ofLine]
  exact Nat.le_trans (Text.size_le_of_prefix (Text.trimEnd_prefix isLineSpace _))
    (Text.longestWithin_cut settings.lineLimit _).size_le

/-- A run over lines that are cut to its limit beforehand cuts none of them if it is given any limit
that is not lower, and comes to the same otherwise. What is written of a line is within the limit. -/
theorem faultless_cut_before (printer : Printer) (settings : Settings) (bytes : List UInt8)
    (pieces : List (List Char)) (wide : Nat)
    (hpieces : List.Forall₂ (fun line piece =>
      LongestWithin settings.lineLimit (lineText line) piece) (Text.lines bytes) pieces)
    (hwide : settings.lineLimit ≤ wide) :
    let cutting := faultless printer settings bytes
    let plain := faultless printer { settings with lineLimit := wide } (ended pieces)
    plain.output = cutting.output ∧
    cutting.outcome = .ok cutting.summary ∧
    plain.outcome = .ok { cutting.summary with truncated := 0 } ∧
    ∃ echoed : List (List Char),
      Text.lines cutting.output = (echoed.map fun line => encode ((validate line).render line)) ∧
      ∀ line ∈ echoed, (encode line).length ≤ settings.lineLimit := by
  intro cutting plain
  obtain rfl := (forall₂_longestWithin_iff bytes _).mp hpieces
  have htexts := texts_ended_cutLines bytes hwide
  have hchecked : checked { settings with lineLimit := wide }
      (ended (cutLines settings.lineLimit bytes)) = checked settings bytes := by
    rw [checked_eq, htexts, checked_eq]
  refine ⟨?_, faultless_outcome printer settings bytes, ?_, ?_⟩
  · rw [output_eq, hchecked, output_eq]
  · have hsummary : plain.summary = { cutting.summary with truncated := 0 } := by
      rw [summary_eq, htexts, hchecked, countP_isTruncated_ended_cutLines bytes hwide, summary_eq]
    rw [← hsummary]
    exact faultless_outcome printer _ _
  · refine ⟨checked settings bytes, lines_output printer settings bytes, fun line hline => ?_⟩
    rw [Text.Utf8.length_encode]
    exact size_le_of_mem_checked hline

/-- The first line is cut before a character of two bytes and ends in carriage returns then, and of
the second line only space is left. -/
theorem faultless_cut_before_inside_character :
    List.Forall₂ (fun line piece => LongestWithin 4 (lineText line) piece)
      (Text.lines (encode "1\r\ré\n   é\na+b".toList))
      ["1\r\r".toList, "   ".toList, "a+b".toList] ∧
    4 ≤ 18446744073709551615 ∧
    (faultless (·.label.message) { lineLimit := 18446744073709551615 }
      (ended ["1\r\r".toList, "   ".toList, "a+b".toList])).output =
        encode "1 -- valid\na+b -- valid\n".toList := by
  have hpieces := (forall₂_longestWithin_iff (encode "1\r\ré\n   é\na+b".toList) 4).mpr
      (show _ = ["1\r\r".toList, "   ".toList, "a+b".toList] by decide +kernel)
  have hwide : 4 ≤ 18446744073709551615 := by decide
  refine ⟨hpieces, hwide, ?_⟩
  apply (faultless_cut_before (·.label.message) { lineLimit := 4 } _ _ _ hpieces hwide).1.trans
  decide +kernel

end ArithLines.Batch
