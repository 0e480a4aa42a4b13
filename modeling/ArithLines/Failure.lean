/-! Why a run, or its preparation, fails. -/

namespace ArithLines

inductive Failure where
  | opening (path : String)
  | reading
  | writing
deriving DecidableEq

def Failure.message : Failure → String
  | opening path => "Could not open file '" ++ path ++ "'"
  | reading => "failed to read input"
  | writing => "failed to write output"

/-- A failure and, in words, what caused it. -/
structure Fault where
  failure : Failure
  cause : String
deriving DecidableEq

end ArithLines
