import ArithLines.Proofs.Batch.Account

/-! Runs whose input or sink fails, beside the run without a fault over the bytes that can be read.
The sink gets what that run writes as far as there is room, nothing is left out or written twice, and
the fault that is reported is the first one. -/

namespace ArithLines.Batch

/-- The bytes of the lines that can be read. -/
def Input.readable (input : Input) : List UInt8 :=
  if input.failure.isSome then Text.completed input.bytes else input.bytes

theorem Input.lines_eq (input : Input) : input.lines = Text.lines input.readable := by
  rw [Input.lines, Input.readable]
  split
  · exact (Text.lines_completed input.bytes).symm
  · rfl

/-- What is read from an input that fails is the longest beginning of it that has no line without an
end. -/
theorem Input.readable_spec (input : Input) :
    if input.failure.isSome then
      input.readable <+: input.bytes ∧ Text.Complete input.readable ∧
        ∀ other, other <+: input.bytes → Text.Complete other → other <+: input.readable
    else input.readable = input.bytes := by
  rw [Input.readable]
  split
  · refine ⟨⟨Text.remainder input.bytes, Text.completed_append_remainder input.bytes⟩,
      Text.complete_completed input.bytes, ?_⟩
    intro other hother hcomplete
    exact hcomplete.isPrefix_completed hother
  · rfl

section Faults

variable {printer : Printer} {settings : Settings} {input : Input} {sink : Sink}

/-- The lines of the input, as a run without a fault records them. -/
theorem foldl_lines (printer : Printer) (settings : Settings) (input : Input) (sink : Sink) :
    let recorded := entries settings input.readable
    let after := input.lines.foldl (Progress.line printer settings) { sink }
    let overflow := sink.overflow? (faultless printer settings input.readable).output
    (overflow = none → Progress.Advances printer settings { sink } recorded after) ∧
      ∀ fault, overflow = some fault →
        Progress.Breaks printer settings { sink } recorded fault after := by
  rw [faultless_output, input.lines_eq]
  exact Progress.foldl_line printer settings (Text.lines input.readable) { sink } rfl

theorem run_of_fits
    (h : sink.overflow? (faultless printer settings input.readable).output = none) :
    (run printer settings input sink).outcome =
        ((input.failure.map (Fault.mk .reading)).or
          (sink.flushFailure.map (Fault.mk .writing))).elim
            (.ok (faultless printer settings input.readable).summary) .error ∧
      (run printer settings input sink).notices =
        (faultless printer settings input.readable).notices := by
  have hlines := (foldl_lines printer settings input sink).1 h
  constructor
  · rw [Progress.outcome, run, Progress.finish]
    dsimp only
    rw [hlines.fault, hlines.sink, Sink.write_flushFailure, hlines.summary, faultless_summary,
      Option.none_or]
    rfl
  · rw [← Array.toList_inj, faultless_notices]
    exact hlines.notices

theorem run_of_overflow {fault : Fault}
    (h : sink.overflow? (faultless printer settings input.readable).output = some fault) :
    (run printer settings input sink).outcome = .error fault ∧
      (run printer settings input sink).notices.toList <+:
        (faultless printer settings input.readable).notices.toList := by
  have hlines := (foldl_lines printer settings input sink).2 fault h
  constructor
  · rw [Progress.outcome, run, Progress.finish]
    dsimp only
    rw [hlines.fault]
    rfl
  · rw [faultless_notices]
    exact hlines.notices

/-- Whether or not there is room, as much is written as there is room for. -/
theorem run_sink (printer : Printer) (settings : Settings) (input : Input) (sink : Sink) :
    (run printer settings input sink).sink =
      sink.write (faultless printer settings input.readable).output := by
  obtain ⟨hadvances, hbreaks⟩ := foldl_lines printer settings input sink
  rw [faultless_output] at hadvances hbreaks ⊢
  cases hoverflow : sink.overflow? ((entries settings input.readable).flatMap Entry.output) with
  | none => exact (hadvances hoverflow).sink
  | some fault => exact (hbreaks fault hoverflow).sink

end Faults

theorem Progress.errors_prefix_of_notices {first second : Progress}
    (h : first.notices.toList <+: second.notices.toList) :
    first.errors.toList <+: second.errors.toList := by
  obtain ⟨more, hmore⟩ := h
  rw [Progress.errors, Progress.errors, ← hmore, String.join_append,
    String.toList_append]
  exact List.prefix_append _ _

/-- A run with faults, beside one without over the bytes that can be read: it writes what there is
room for, reports the first fault on its way, and gives the same notices up to it. -/
theorem run_with_faults (printer : Printer) (settings : Settings) (input : Input)
    (limit : Option Limit) (flushFailure : Option String) :
    let fine := faultless printer settings input.readable
    let progress := run printer settings input { limit, flushFailure }
    let exceeded := limit.filter (·.room < fine.output.length)
    (if input.failure.isSome then
      input.readable <+: input.bytes ∧ Text.Complete input.readable ∧
        ∀ other, other <+: input.bytes → Text.Complete other → other <+: input.readable
    else input.readable = input.bytes) ∧
    fine.outcome = .ok fine.summary ∧
    progress.output = (limit.elim fine.output fun limit => fine.output.take limit.room) ∧
    progress.outcome =
      ((exceeded.map fun limit => ⟨.writing, limit.cause⟩).or <|
        (input.failure.map fun cause => ⟨.reading, cause⟩).or <|
        flushFailure.map fun cause => ⟨.writing, cause⟩).elim (.ok fine.summary) .error ∧
    progress.errors.toList <+: fine.errors.toList ∧
    (exceeded = none → progress.errors = fine.errors) := by
  intro fine progress exceeded
  refine ⟨input.readable_spec, ?_, ?_, ?_⟩
  · rw [Progress.outcome, faultless_fault]
    rfl
  · rw [Progress.output, run_sink, Sink.write_written]
    rfl
  have hoverflow : Sink.overflow? { limit, flushFailure } fine.output =
      exceeded.map fun limit => ⟨.writing, limit.cause⟩ := rfl
  cases hexceeded : exceeded with
  | some limit =>
    obtain ⟨houtcome, hnotices⟩ := run_of_overflow (by rw [hoverflow, hexceeded]; rfl)
    exact ⟨houtcome, Progress.errors_prefix_of_notices hnotices, by simp⟩
  | none =>
    obtain ⟨houtcome, hnotices⟩ := run_of_fits (by rw [hoverflow, hexceeded]; rfl)
    have herrors : progress.errors = fine.errors := by
      rw [Progress.errors, hnotices]
      rfl
    exact ⟨houtcome, ⟨[], (List.append_nil _).trans (congrArg String.toList herrors)⟩,
      fun _ => herrors⟩

/-- The sink is full inside the second line, of which there is notice nevertheless. The failure of the
input after the third line comes too late. -/
example :
    let input : Input := { bytes := Text.Utf8.encode "a\n(\n1 +\n".toList, failure := some "gone" }
    let progress := run (·.label.message) { diagnostics := true } input
      { limit := some { room := 14, cause := "full" } }
    progress.output = Text.Utf8.encode "a -- valid\n( -".toList ∧
    progress.fault = some ⟨.writing, "full"⟩ ∧
    progress.errors = "unbalanced parentheses" := by
  decide +kernel

end ArithLines.Batch
