import ArithLines.Report
import ArithLines.Settings
import ArithLines.Text.Cut
import ArithLines.Text.Trim

/-! What one line of an input comes to. The line is decoded, freed of what ends it, cut to the limit,
freed of the space at its end, and checked if anything is left. -/

namespace ArithLines.Batch

structure Entry where
  size : Nat
  /-- The size of the line after the cut. -/
  kept : Nat
  text : List Char
  /-- The check of a line that is not blank. -/
  examination : Option Examination
deriving DecidableEq

def isLineEnd (c : Char) : Bool := c == '\n' || c == '\r'

namespace Entry

def ofLine (lineLimit : Nat) (bytes : List UInt8) : Entry :=
  let whole := Text.trimEnd isLineEnd (Text.Utf8.decodeLossy bytes)
  let cut := Text.cut lineLimit whole
  let text := Text.trimEnd isLineSpace cut
  { size := Text.Utf8.size whole
    kept := Text.Utf8.size cut
    text
    examination := if text.all isLineSpace then none else some (examine text) }

def isTruncated (entry : Entry) : Bool := entry.kept < entry.size

def accepted? (entry : Entry) : Option Bool := entry.examination.map (·.verdict.accepted)

def warnings (entry : Entry) (number : Nat) : List String :=
  if entry.isTruncated then [s!"Warning: Line {number} exceeds buffer size\n"] else []

/-- The report of a line that is rejected, if reports are wanted. -/
def reports (entry : Entry) (printer : Printer) (settings : Settings) : List String :=
  entry.examination.elim [] fun examination =>
    if !examination.verdict.accepted && settings.diagnostics then
      (examination.verdict.report? entry.text settings.source.name).toList.map printer
    else []

def output (entry : Entry) : List UInt8 :=
  entry.examination.elim [] fun examination =>
    Text.Utf8.encode (examination.verdict.render entry.text ++ ['\n'])

def events (entry : Entry) (number : Nat) : List Event :=
  (if entry.isTruncated then [.cut number entry.size entry.kept] else []) ++
    entry.examination.elim [] Examination.events

end Entry

/-- How many lines were read, and what they came to. -/
structure Summary where
  linesRead : Nat := 0
  valid : Nat := 0
  invalid : Nat := 0
  skipped : Nat := 0
  truncated : Nat := 0
deriving DecidableEq

namespace Summary

def count (summary : Summary) (entry : Entry) : Summary :=
  { linesRead := summary.linesRead + 1
    valid := summary.valid + if entry.accepted? = some true then 1 else 0
    invalid := summary.invalid + if entry.accepted? = some false then 1 else 0
    skipped := summary.skipped + if entry.accepted? = none then 1 else 0
    truncated := summary.truncated + if entry.isTruncated then 1 else 0 }

@[simp] theorem count_linesRead (summary : Summary) (entry : Entry) :
    (summary.count entry).linesRead = summary.linesRead + 1 := rfl

theorem count_total (summary : Summary) (entry : Entry)
    (h : summary.valid + summary.invalid + summary.skipped = summary.linesRead) :
    (summary.count entry).valid + (summary.count entry).invalid + (summary.count entry).skipped =
      (summary.count entry).linesRead := by
  simp only [count]
  rcases entry.accepted? with _ | _ | _ <;> simp <;> omega

end Summary

end ArithLines.Batch
