import ArithLines.Batch.Entry
import ArithLines.Batch.Stream

/-! Checking the lines of an input one after another. Every line that is not blank is written to the
sink together with its verdict; warnings and reports are notices, which have a stream of their own.
The notices of a line are given even if there is no room to write it. The first fault ends a run. -/

namespace ArithLines.Batch

structure Progress where
  summary : Summary := {}
  sink : Sink
  notices : Array String := #[]
  events : Array Event := #[]
  fault : Option Fault := none
deriving DecidableEq

/-- The record of a run that came to its end. -/
def finished (summary : Summary) : Event :=
  .finished summary.linesRead summary.valid summary.invalid summary.skipped

namespace Progress

def record (printer : Printer) (settings : Settings) (progress : Progress) (entry : Entry) :
    Progress :=
  let summary := progress.summary.count entry
  { summary
    sink := progress.sink.write entry.output
    notices :=
      progress.notices ++ (entry.warnings summary.linesRead ++ entry.reports printer settings)
    events := progress.events ++ entry.events summary.linesRead
    fault := progress.sink.overflow? entry.output }

def line (printer : Printer) (settings : Settings) (progress : Progress) (bytes : List UInt8) :
    Progress :=
  if progress.fault.isSome then progress
  else progress.record printer settings (.ofLine settings.lineLimit bytes)

/-- After the last line the input may fail, and then the sink. -/
def finish (progress : Progress) (inputFailure : Option String) : Progress :=
  let fault := progress.fault.or <|
    (inputFailure.map (Fault.mk .reading)).or (progress.sink.flushFailure.map (Fault.mk .writing))
  { progress with
    fault
    events :=
      if fault.isSome then progress.events else progress.events.push (finished progress.summary) }

theorem line_of_fault {progress : Progress} (h : progress.fault.isSome = true) (printer : Printer)
    (settings : Settings) (bytes : List UInt8) :
    progress.line printer settings bytes = progress := if_pos h

end Progress

def run (printer : Printer) (settings : Settings) (input : Input) (sink : Sink) : Progress :=
  (input.lines.foldl (Progress.line printer settings) { sink }).finish input.failure

end ArithLines.Batch
