import ArithLines.Proofs.Batch.Account
import ArithLines.Proofs.Rendering
import ArithLines.Proofs.Text.Utf8

/-! Reading back what a run writes. Its output is lines, each of them a line of the input with its
verdict, so that the lines that were checked and what was said of them can be told from it. -/

namespace ArithLines.Batch

open Text (newline)

/-- The text of a line that is checked. -/
def Entry.checked (entry : Entry) : Option (List Char) := entry.examination.map fun _ => entry.text

/-- The lines that a run checks. -/
def checked (settings : Settings) (bytes : List UInt8) : List (List Char) :=
  (entries settings bytes).filterMap Entry.checked

/-- The lines with what is said of them, as an output shows them. -/
def readOutput (output : List UInt8) : List (List Char × List Char) :=
  (Text.lines output).filterMap fun bytes => (Text.Utf8.decode? bytes).bind (splitLast dashes)

/-! ### Lines that are checked -/

/-- What is left of a line has no newline, as the line has none. -/
theorem Entry.newline_not_mem_ofLine (limit : Nat) {bytes : List UInt8} (h : newline ∉ bytes) :
    '\n' ∉ (Entry.ofLine limit bytes).text := by
  intro hmem
  have hwhole : (Entry.ofLine limit bytes).text <+: Text.Utf8.decodeLossy bytes :=
    (Text.trimEnd_prefix _ _).trans ((Text.cut_prefix _ _).trans (Text.trimEnd_prefix _ _))
  exact h ((Text.Utf8.newline_mem_decodeLossy_iff bytes).mp (hwhole.subset hmem))

theorem newline_not_mem_checked {settings : Settings} {bytes : List UInt8} {line : List Char}
    (h : line ∈ checked settings bytes) : '\n' ∉ line := by
  obtain ⟨entry, hentry, hline⟩ := List.mem_filterMap.mp h
  obtain ⟨read, hread, rfl⟩ := List.mem_map.mp hentry
  obtain ⟨examination, -, rfl⟩ := Option.map_eq_some_iff.mp hline
  exact Entry.newline_not_mem_ofLine _ (Text.newline_not_mem_of_mem_lines hread)

theorem newline_not_mem_render {line : List Char} (h : '\n' ∉ line) :
    '\n' ∉ (validate line).render line := by
  rw [Verdict.render, List.mem_append, List.mem_append, not_or, not_or]
  exact ⟨⟨h, by decide⟩, not_mem_words line (.inr rfl)⟩

/-! ### The lines of an output -/

theorem Entry.output_ofLine (limit : Nat) (bytes : List UInt8) :
    (Entry.ofLine limit bytes).output = (Entry.ofLine limit bytes).checked.toList.flatMap
      fun line => Text.Utf8.encode ((validate line).render line) ++ [newline] := by
  rw [Entry.output, Entry.checked, Entry.ofLine]
  dsimp only
  split
  · rfl
  · rw [Option.elim_some, Text.Utf8.encode_append]
    exact (List.append_nil _).symm

theorem output_eq (printer : Printer) (settings : Settings) (bytes : List UInt8) :
    (faultless printer settings bytes).output = ((checked settings bytes).map fun line =>
      Text.Utf8.encode ((validate line).render line)).flatMap (· ++ [newline]) := by
  rw [faultless_output, checked, entries, List.flatMap_map]
  induction Text.lines bytes with
  | nil => rfl
  | cons line lines ih =>
    rw [List.map_cons, List.flatMap_cons, ih, Entry.output_ofLine, List.filterMap_cons]
    cases (Entry.ofLine settings.lineLimit line).checked <;> simp

theorem lines_output (printer : Printer) (settings : Settings) (bytes : List UInt8) :
    Text.lines (faultless printer settings bytes).output = (checked settings bytes).map fun line =>
      Text.Utf8.encode ((validate line).render line) := by
  rw [output_eq]
  apply Text.lines_flatMap
  intro line hline
  obtain ⟨text, htext, rfl⟩ := List.mem_map.mp hline
  rw [Text.Utf8.newline_mem_encode_iff]
  exact newline_not_mem_render (newline_not_mem_checked htext)

theorem readOutput_output (printer : Printer) (settings : Settings)
    (bytes : List UInt8) :
    readOutput (faultless printer settings bytes).output =
      (checked settings bytes).map fun line => (line, (validate line).words.toList) := by
  have hread : ((fun bytes => (Text.Utf8.decode? bytes).bind (splitLast dashes)) ∘
      fun line => Text.Utf8.encode ((validate line).render line)) =
      some ∘ fun line => (line, (validate line).words.toList) := by
    funext line
    rw [Function.comp_apply, Text.Utf8.decode?_encode, Option.bind_some, splitLast_render]
    rfl
  rw [readOutput, lines_output, List.filterMap_map, hread, List.filterMap_eq_map]

/-- A line and what is said of it can be told from the line with its verdict, and the lines that a
run checks, with what is said of them, from what it writes. -/
theorem verdicts_recovered (printer : Printer) (settings : Settings)
    (bytes : List UInt8) :
    (∀ line, splitLast dashes ((validate line).render line) =
        some (line, (validate line).words.toList) ∧
      ((validate line).words = "valid" ↔ (validate line).accepted = true) ∧
      ((validate line).accepted = false → ∃ reason, (validate line).reason = some reason ∧
        (validate line).words = "invalid: " ++ reason.message)) ∧
    (∀ line other, (validate line).render line = (validate other).render other → line = other) ∧
    readOutput (faultless printer settings bytes).output =
      (checked settings bytes).map (fun line => (line, (validate line).words.toList)) ∧
    (∀ line ∈ checked settings bytes, '\n' ∉ line) ∧
    ∀ line reason, (validate line).reason = some reason → '\n' ∉ reason.message.toList := by
  refine ⟨fun line => ⟨splitLast_render line, words_cases line⟩, fun _ _ => render_injective,
    readOutput_output printer settings bytes, fun _ => newline_not_mem_checked, ?_⟩
  intro line reason hreason hmem
  refine not_mem_words line (.inr rfl) ?_
  rw [words_of_reason hreason, String.toList_append]
  exact List.mem_append_right _ hmem

end ArithLines.Batch
