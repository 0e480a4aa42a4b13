/-! The lines of a text in bytes. A newline ends a line and is no part of it. -/

namespace ArithLines.Text

def newline : UInt8 := 0x0a

def endedLines (bytes : List UInt8) : List (List UInt8) := (bytes.splitOn newline).dropLast

def remainder (bytes : List UInt8) : List UInt8 := (bytes.splitOn newline).getLastD []

/-- All lines. What follows the last newline is one of them unless it is empty. -/
def lines (bytes : List UInt8) : List (List UInt8) :=
  if (remainder bytes).isEmpty then endedLines bytes else endedLines bytes ++ [remainder bytes]

@[simp] theorem lines_nil : lines [] = [] := rfl

end ArithLines.Text
