/-! Spans, the ranges of character positions by which a line's tokens, nodes and failures are
located. -/

namespace ArithLines

/-- The positions from `start` up to, but not including, `stop`. -/
structure Span where
  start : Nat
  stop : Nat
deriving DecidableEq

namespace Span

def single (position : Nat) : Span := ⟨position, position + 1⟩

def through (first last : Span) : Span := ⟨first.start, last.stop⟩

@[simp] theorem through_start (first last : Span) : (first.through last).start = first.start := rfl

@[simp] theorem through_stop (first last : Span) : (first.through last).stop = last.stop := rfl

end Span

end ArithLines
