import ArithLines.Proofs.Batch.Lines
import ArithLines.Proofs.Text.Units

/-! Runs over inputs with errors of encoding. Lines are told apart by their bytes and decoded one by
one. Main statement: it comes to the same when all of the input is decoded first. -/

namespace ArithLines.Text.Utf8

theorem decodeLossy_eq_nil_iff {bytes : List UInt8} : decodeLossy bytes = [] ↔ bytes = [] := by
  constructor
  · intro h
    exact decode_eq_nil (List.map_eq_nil_iff.mp h)
  · rintro rfl
    rfl

/-- The bytes with the encoding of the replacement character in place of each error. -/
def mend (bytes : List UInt8) : List UInt8 := encode (decodeLossy bytes)

theorem mend_append_newline (line rest : List UInt8) :
    mend (line ++ newline :: rest) = mend line ++ newline :: mend rest := by
  rw [mend, decodeLossy_append_newline, encode_append]
  rfl

theorem newline_not_mem_mend {line : List UInt8} (h : newline ∉ line) : newline ∉ mend line := by
  rw [mend, newline_mem_encode_iff, newline_mem_decodeLossy_iff]
  exact h

/-- No newline is in an error, so the lines are mended one by one. -/
theorem lines_mend (bytes : List UInt8) : lines (mend bytes) = (lines bytes).map mend := by
  induction bytes using line_induction with
  | last line hline =>
    have hmend : mend line = [] ↔ line = [] := by
      rw [mend, ← decodeLossy_eq_nil_iff, decodeLossy_encode, decodeLossy_eq_nil_iff]
    rw [lines, lines, endedLines_of_not_mem hline, remainder_of_not_mem hline,
      endedLines_of_not_mem (newline_not_mem_mend hline),
      remainder_of_not_mem (newline_not_mem_mend hline)]
    simp only [List.isEmpty_iff, hmend]
    split <;> rfl
  | ended line rest hline ih =>
    rw [mend_append_newline, lines_cons (newline_not_mem_mend hline), ih, lines_cons hline,
      List.map_cons]

end ArithLines.Text.Utf8

namespace ArithLines.Batch

open Text.Utf8 (Reads decodeLossy encode replacement)

theorem lineText_mend (line : List UInt8) : lineText (Text.Utf8.mend line) = lineText line := by
  rw [lineText, Text.Utf8.mend, Text.Utf8.decodeLossy_encode, lineText]

theorem faultless_mend (printer : Printer) (settings : Settings) (bytes : List UInt8) :
    faultless printer settings (Text.Utf8.mend bytes) = faultless printer settings bytes := by
  apply faultless_congr
  rw [Text.Utf8.lines_mend, List.map_map]
  exact List.map_congr_left fun line _ => lineText_mend line

/-- A run over an input comes to the same in every respect as a run over the text of it. That text has
a replacement character for each error, and there is one way only to tell the errors. -/
theorem faultless_decodeLossy (printer : Printer) (settings : Settings) (bytes : List UInt8) :
    ∃ units, Reads bytes units ∧ (∀ other, Reads bytes other → other = units) ∧
      decodeLossy bytes = units.map (·.getD replacement) ∧
      faultless printer settings (encode (decodeLossy bytes)) =
        faultless printer settings bytes := by
  refine ⟨Text.Utf8.decode bytes, Text.Utf8.reads_iff.mpr rfl, ?_, rfl,
    faultless_mend printer settings bytes⟩
  intro other hother
  exact (Text.Utf8.reads_iff.mp hother).symm

/-- Two bytes of a character that lacks its third one are an error, and the newline after them is not
part of it. -/
example :
    let bytes : List UInt8 := [0x61, 0xe2, 0x82, 0x0a, 0x62]
    let output := encode "a\ufffd -- invalid: unrecognized token '\ufffd'\nb -- valid\n".toList
    decodeLossy bytes = "a\ufffd\nb".toList ∧
    (faultless (·.label.message) {} (encode (decodeLossy bytes))).output = output ∧
    (faultless (·.label.message) {} bytes).output = output := by
  decide +kernel

end ArithLines.Batch
