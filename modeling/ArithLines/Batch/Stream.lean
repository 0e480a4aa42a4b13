import ArithLines.Failure
import ArithLines.Text.Lines

/-! The two ends of a run: an input that may fail where its bytes end, and a sink that may run out of
room or fail to be flushed. Either says itself what the cause of its failure is. -/

namespace ArithLines.Batch

structure Input where
  bytes : List UInt8
  /-- Why the input fails after its bytes, unless it comes to its end there. -/
  failure : Option String := none
deriving DecidableEq

/-- The lines that can be read. A failure takes with it a line that is not ended. -/
def Input.lines (input : Input) : List (List UInt8) :=
  if input.failure.isSome then Text.endedLines input.bytes else Text.lines input.bytes

/-- How many bytes more can be written, and why no others can. -/
structure Limit where
  room : Nat
  cause : String
deriving DecidableEq

def Limit.spend (limit : Limit) (count : Nat) : Limit := { limit with room := limit.room - count }

structure Sink where
  limit : Option Limit := none
  /-- Why the sink cannot be flushed, unless it can. -/
  flushFailure : Option String := none
  written : Array UInt8 := #[]
deriving DecidableEq

namespace Sink

/-- The fault of a sink that has no room for all of the bytes. -/
def overflow? (sink : Sink) (bytes : List UInt8) : Option Fault :=
  (sink.limit.filter (·.room < bytes.length)).map fun limit => ⟨.writing, limit.cause⟩

/-- Writes as many of the bytes as there is room for. -/
def write (sink : Sink) (bytes : List UInt8) : Sink :=
  { sink with
    limit := sink.limit.map (·.spend bytes.length)
    written := sink.written ++ sink.limit.elim bytes fun limit => bytes.take limit.room }

@[simp] theorem write_flushFailure (sink : Sink) (bytes : List UInt8) :
    (sink.write bytes).flushFailure = sink.flushFailure := rfl

theorem write_written (sink : Sink) (bytes : List UInt8) :
    (sink.write bytes).written.toList =
      sink.written.toList ++ sink.limit.elim bytes fun limit => bytes.take limit.room := by
  simp [write]

end Sink

end ArithLines.Batch
