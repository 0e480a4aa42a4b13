import ArithLines.Proofs.Batch.Lines

/-! Inputs whose lines are ended in one way or another: by a newline, by carriage returns and a
newline, or, if it is the last line, by the end of the input. Main statement: nothing in a run depends
on it. -/

namespace ArithLines.Text

def carriageReturn : UInt8 := 0x0d

/-- The lines stand in the bytes one after another. Each is followed by any number of carriage returns
and a newline, which the last line may lack if there is a byte before it. -/
inductive Terminated : List (List UInt8) → List UInt8 → Prop
  | nil : Terminated [] []
  | unended {line : List UInt8} (returns : Nat) :
      newline ∉ line → line ++ List.replicate returns carriageReturn ≠ [] →
      Terminated [line] (line ++ List.replicate returns carriageReturn)
  | ended {line bytes : List UInt8} {lines : List (List UInt8)} (returns : Nat) :
      newline ∉ line → Terminated lines bytes →
      Terminated (line :: lines)
        (line ++ List.replicate returns carriageReturn ++ newline :: bytes)

theorem newline_not_mem_append_returns {line : List UInt8} (h : newline ∉ line) (returns : Nat) :
    newline ∉ line ++ List.replicate returns carriageReturn := by
  intro hmem
  rcases List.mem_append.mp hmem with hmem | hmem
  · exact h hmem
  · exact absurd (List.eq_of_mem_replicate hmem) (by decide)

theorem lines_unended {line : List UInt8} (h : newline ∉ line) (hne : line ≠ []) :
    lines line = [line] := by
  rw [lines, endedLines_of_not_mem h, remainder_of_not_mem h]
  exact if_neg (by simpa using hne)

end ArithLines.Text

namespace ArithLines.Batch

open Text (Terminated carriageReturn newline)

/-- A carriage return is no part of what comes before it, not even of a character that lacks bytes. -/
theorem lineText_concat_return (line : List UInt8) :
    lineText (line ++ [carriageReturn]) = lineText line := by
  have hreturn : Text.Utf8.decode [carriageReturn] = [some '\r'] := by decide
  have hdecode : Text.Utf8.decodeLossy (line ++ [carriageReturn]) =
      Text.Utf8.decodeLossy line ++ ['\r'] := by
    rw [Text.Utf8.decodeLossy, Text.Utf8.decode_append (by decide), hreturn, List.map_append]
    rfl
  rw [lineText, hdecode, Text.trimEnd_concat_of_pos (by decide), lineText]

theorem lineText_append_returns (line : List UInt8) (returns : Nat) :
    lineText (line ++ List.replicate returns carriageReturn) = lineText line := by
  induction returns with
  | zero => rw [List.replicate_zero, List.append_nil]
  | succ returns ih =>
    rw [List.replicate_succ', ← List.append_assoc, lineText_concat_return, ih]

/-- However the lines are ended, what there is to check of them is the same. -/
theorem lineText_of_terminated {lines : List (List UInt8)} {bytes : List UInt8}
    (h : Terminated lines bytes) : (Text.lines bytes).map lineText = lines.map lineText := by
  induction h with
  | nil => rfl
  | @unended line returns hline hne =>
    rw [Text.lines_unended (Text.newline_not_mem_append_returns hline returns) hne,
      List.map_singleton, List.map_singleton, lineText_append_returns]
  | @ended line bytes lines returns hline _ ih =>
    rw [Text.lines_cons (Text.newline_not_mem_append_returns hline returns), List.map_cons, ih,
      List.map_cons, lineText_append_returns]

/-- Two inputs with the same lines are run over in the same way, whatever ends their lines. -/
theorem faultless_terminated (printer : Printer) (settings : Settings)
    (lines : List (List UInt8)) (bytes other : List UInt8)
    (h : Terminated lines bytes) (hother : Terminated lines other) :
    let progress := faultless printer settings bytes
    progress = faultless printer settings other ∧ progress.outcome = .ok progress.summary := by
  refine ⟨faultless_congr printer settings ?_, faultless_outcome printer settings bytes⟩
  rw [lineText_of_terminated h, lineText_of_terminated hother]

/-- The first line ends in a carriage return of its own, the second in the first two bytes of a
character of three. It is cut, as an error takes three bytes. -/
theorem faultless_terminated_broken :
    let settings : Settings := { lineLimit := 4, diagnostics := true }
    let lines : List (List UInt8) := [[0x61, 0x0d], [0x31, 0x32, 0xe2, 0x82], [], [0x28, 0x20]]
    let bytes : List UInt8 :=
      [0x61, 0x0d, 0x0a, 0x31, 0x32, 0xe2, 0x82, 0x0d, 0x0d, 0x0a, 0x0d, 0x0a, 0x28, 0x20]
    let other : List UInt8 :=
      [0x61, 0x0d, 0x0d, 0x0a, 0x31, 0x32, 0xe2, 0x82, 0x0a, 0x0a, 0x28, 0x20, 0x0d, 0x0a]
    Terminated lines bytes ∧ Terminated lines other ∧
    faultless (·.label.message) settings bytes = faultless (·.label.message) settings other ∧
    (faultless (·.label.message) settings other).output = Text.Utf8.encode
      "a -- valid\n12 -- valid\n( -- invalid: unbalanced parentheses\n".toList ∧
    (faultless (·.label.message) settings other).errors =
      "Warning: Line 2 exceeds buffer size\nunbalanced parentheses" := by
  intro settings lines bytes other
  have hbytes : Terminated lines bytes :=
    .ended 0 (by decide) <| .ended 2 (by decide) <| .ended 1 (by decide) <|
      .unended 0 (by decide) (by decide)
  have hother : Terminated lines other :=
    .ended 1 (by decide) <| .ended 0 (by decide) <| .ended 0 (by decide) <|
      .ended 1 (by decide) .nil
  refine ⟨hbytes, hother, ?_, ?_, ?_⟩
  · exact (faultless_terminated (·.label.message) settings lines bytes other hbytes hother).1
  · decide +kernel
  · decide +kernel

end ArithLines.Batch
