import ArithLines.Proofs.Batch.Account
import ArithLines.Proofs.Text.Shortening
import ArithLines.Proofs.Text.Utf8

/-! What a run makes of a line. It depends on the text of the line alone, without what ends it, and so
does the whole run on the texts of its lines. -/

namespace ArithLines.Batch

/-- The text of a line without what ends it. -/
def lineText (bytes : List UInt8) : List Char :=
  Text.trimEnd isLineEnd (Text.Utf8.decodeLossy bytes)

/-- `text` is what there is to check of the line: of the longest beginning of its text that the limit
allows, all but the space at the end. -/
def Leaves (limit : Nat) (bytes : List UInt8) (text : List Char) : Prop :=
  ∃ kept, Text.LongestWithin limit (lineText bytes) kept ∧ Text.Trimmed isLineSpace kept text

theorem isLineSpace_of_isLineEnd {c : Char} (h : isLineEnd c = true) : isLineSpace c = true := by
  rw [isLineEnd, Bool.or_eq_true, beq_iff_eq, beq_iff_eq] at h
  rcases h with rfl | rfl
  · decide
  · decide

theorem lineText_encode (text : List Char) :
    lineText (Text.Utf8.encode text) = Text.trimEnd isLineEnd text := by
  rw [lineText, Text.Utf8.decodeLossy_encode]

theorem newline_not_mem_lineText {bytes : List UInt8} (h : Text.newline ∉ bytes) :
    '\n' ∉ lineText bytes := by
  intro hmem
  apply h
  rw [← Text.Utf8.newline_mem_decodeLossy_iff]
  exact (Text.trimEnd_prefix isLineEnd _).subset hmem

namespace Entry

variable {limit : Nat} {bytes other : List UInt8}

theorem ofLine_congr (limit : Nat) (h : lineText bytes = lineText other) :
    ofLine limit bytes = ofLine limit other := by
  rw [lineText, lineText] at h
  rw [ofLine, ofLine, h]

theorem text_ofLine (limit : Nat) (bytes : List UInt8) :
    (ofLine limit bytes).text = Text.trimEnd isLineSpace (Text.cut limit (lineText bytes)) := rfl

theorem leaves_iff {text : List Char} : Leaves limit bytes text ↔ (ofLine limit bytes).text = text := by
  rw [text_ofLine]
  constructor
  · rintro ⟨kept, hkept, htext⟩
    rw [hkept.cut_eq, htext.trimEnd_eq]
  · rintro rfl
    exact ⟨_, Text.longestWithin_cut limit _, Text.trimmed_trimEnd _ _⟩

/-- A line is checked if there is anything left of it. -/
theorem examination_ofLine (limit : Nat) (bytes : List UInt8) :
    (ofLine limit bytes).examination =
      if (ofLine limit bytes).text = [] then none else some (examine (ofLine limit bytes).text) := by
  have hexamination : (ofLine limit bytes).examination =
      if (ofLine limit bytes).text.all isLineSpace then none
      else some (examine (ofLine limit bytes).text) := rfl
  have hblank : (ofLine limit bytes).text.all isLineSpace = true ↔ (ofLine limit bytes).text = [] := by
    rw [text_ofLine, Text.all_trimEnd_iff]
  rw [hexamination]
  exact if_congr hblank rfl rfl

theorem accepted?_ofLine (limit : Nat) (bytes : List UInt8) :
    (ofLine limit bytes).accepted? =
      if (ofLine limit bytes).text = [] then none
      else some (validate (ofLine limit bytes).text).accepted := by
  rw [accepted?, examination_ofLine]
  by_cases h : (ofLine limit bytes).text = []
  · rw [if_pos h, if_pos h, Option.map_none]
  · rw [if_neg h, if_neg h, Option.map_some, validate]

theorem isTruncated_ofLine_iff :
    (ofLine limit bytes).isTruncated = true ↔ limit < Text.Utf8.size (lineText bytes) := by
  rw [isTruncated, decide_eq_true_eq]
  exact Text.size_cut_lt_iff

/-! A line that fits is left as it is but for the space at its end, some of which may be taken for
what ends the line. -/

section Fits

variable {text : List Char} (h : Text.Utf8.size (Text.trimEnd isLineEnd text) ≤ limit)

include h

theorem text_ofLine_encode :
    (ofLine limit (Text.Utf8.encode text)).text = Text.trimEnd isLineSpace text := by
  rw [text_ofLine, lineText_encode, Text.cut_of_size_le h,
    Text.trimEnd_trimEnd fun _ => isLineSpace_of_isLineEnd]

theorem isTruncated_ofLine_encode : (ofLine limit (Text.Utf8.encode text)).isTruncated = false := by
  rw [← Bool.not_eq_true, isTruncated_ofLine_iff, lineText_encode, Nat.not_lt]
  exact h

end Fits

end Entry

section Runs

variable {bytes other : List UInt8} (printer : Printer) (settings : Settings)

theorem Progress.line_congr (progress : Progress) (h : lineText bytes = lineText other) :
    progress.line printer settings bytes = progress.line printer settings other := by
  rw [Progress.line, Progress.line, Entry.ofLine_congr _ h]

theorem foldl_line_congr {lines others : List (List UInt8)}
    (h : lines.map lineText = others.map lineText) (progress : Progress) :
    lines.foldl (Progress.line printer settings) progress =
      others.foldl (Progress.line printer settings) progress := by
  induction lines generalizing others progress with
  | nil =>
    rw [List.map_eq_nil_iff.mp h.symm]
  | cons line lines ih =>
    cases others with
    | nil => simp at h
    | cons other others =>
      obtain ⟨hline, hlines⟩ := List.cons.inj h
      rw [List.foldl_cons, List.foldl_cons, Progress.line_congr printer settings progress hline,
        ih hlines]

/-- Two inputs whose lines have the same texts are run over in the same way. -/
theorem faultless_congr (h : (Text.lines bytes).map lineText = (Text.lines other).map lineText) :
    faultless printer settings bytes = faultless printer settings other := by
  have hfold := foldl_line_congr printer settings h { sink := {} }
  exact congrArg (Progress.finish · none) hfold

end Runs

end ArithLines.Batch
