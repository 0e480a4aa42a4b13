/-! Where the lines come from, and how they are checked. -/

namespace ArithLines

inductive Source where
  | file (path : String)
  | standardInput
deriving DecidableEq

namespace Source

/-- The source that an argument names: a dash is standard input. -/
def ofArgument (argument : String) : Source :=
  if argument = "-" then standardInput else file argument

def name : Source → String
  | file path => path
  | standardInput => "<stdin>"

end Source

structure Settings where
  source : Source := .file "scanme.txt"
  /-- The number of bytes to which a line is cut. -/
  lineLimit : Nat := 1023
  diagnostics : Bool := false
deriving DecidableEq

end ArithLines
