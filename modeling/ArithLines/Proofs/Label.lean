import ArithLines.Proofs.Unrecognized
import ArithLines.Report

/-! Where a report marks a line. The label lies in the line and marks a character if there is one,
whatever span it is clipped from, and what is marked of a rejected line is the span that is blamed,
or the last character where the line fails at its end. -/

namespace ArithLines

namespace Span

section Clip

variable {span : Span} {length : Nat}

end Clip

end Span

/-! ### Labels in machine words -/

/-- A span in words of `width` bits. -/
structure WordSpan (width : Nat) where
  start : BitVec width
  stop : BitVec width

namespace WordSpan

variable {width : Nat}

def toSpan (span : WordSpan width) : Span := ⟨span.start.toNat, span.stop.toNat⟩

def before (position : BitVec width) : BitVec width := if position = 0 then 0 else position - 1

end WordSpan

/-! ### What is blamed -/

/-- What is blamed of a rejected line is one of its tokens, or the end of the line. -/
theorem blamed_of_rejected {line : List Char} (h : (validate line).accepted = false) :
    (∃ token ∈ (Cursor.ofLine line).tokens, (validate line).span = some token.span) ∨
      (validate line).span = some (.single line.length) := by
  rcases validate_cases line with
    ⟨machine, -, -, hvalidate⟩ | ⟨read, rest, machine, hstalls, hvalidate⟩
  · rw [hvalidate] at h
    cases h
  · cases hfirst : firstUnrecognized line with
    | some first =>
      rw [validate_of_unrecognized hfirst]
      exact .inl ⟨first, List.mem_of_find?_eq_some hfirst, rfl⟩
    | none =>
      obtain ⟨-, hblame⟩ :=
        Findings.ofHalt_of_none hfirst machine (rest.headD (.endOfLine line.length))
      rw [hvalidate]
      cases rest with
      | nil => exact .inr hblame
      | cons token rest => exact .inl ⟨token, by simp [hstalls.split], hblame⟩

/-- A verdict that is not of acceptance has a reason and a span. -/
theorem accept_or_reject (line : List Char) :
    validate line = .accept ∨ ∃ reason span, validate line = .reject reason (some span) := by
  rcases validate_cases line with ⟨_, -, -, haccept⟩ | ⟨_, _, _, -, hreject⟩
  · exact .inl haccept
  · have hspan : ∃ span, (validate line).span = some span := by
      rcases blamed_of_rejected (by rw [hreject]; rfl) with ⟨token, -, hspan⟩ | hspan
      · exact ⟨_, hspan⟩
      · exact ⟨_, hspan⟩
    obtain ⟨span, hspan⟩ := hspan
    rw [hreject] at hspan
    exact .inr ⟨_, span, hreject.trans (congrArg (Verdict.reject _) hspan)⟩

/-- A span that ends before it begins still marks a character. -/
example : (Span.mk 1 0).clip 3 = ⟨1, 2⟩ := rfl

end ArithLines
