/-! The arguments of the program. They are read from the left, and the first one that asks for help
or the version, or that is refused, ends the reading. -/

namespace ArithLines

structure Options where
  /-- The argument that is no option. -/
  file : Option String := none
  interactive : Bool := false
  diagnostics : Bool := false
  lineLimit : Option Nat := none
deriving DecidableEq

inductive Refusal where
  | unknownOption (argument : String)
  | repeated (argument : String)
  | missingValue (argument : String)
  | badValue (argument value : String)
  | extraArgument (argument : String)
deriving DecidableEq

def Refusal.message : Refusal → String
  | unknownOption argument => s!"unknown option '{argument}'"
  | repeated argument => s!"option '{argument}' is given twice"
  | missingValue argument => s!"option '{argument}' needs a value"
  | badValue argument value => s!"'{value}' is no value for option '{argument}'"
  | extraArgument argument => s!"argument '{argument}' is one too many"

inductive Request where
  | help
  | version
  | refused (refusal : Refusal)
  | start (options : Options)
deriving DecidableEq

namespace Options

def maxLineLimit : Nat := UInt64.size - 1

/-- A number in decimal digits, which a plus sign may precede. -/
def parseLimit? (text : String) : Option Nat :=
  let digits := match text.toList with
    | '+' :: digits => digits
    | digits => digits
  if digits.isEmpty || !digits.all Char.isDigit then none
  else
    let value := digits.foldl (fun value digit => value * 10 + (digit.toNat - '0'.toNat)) 0
    if value ≤ maxLineLimit then some value else none

def limitOption : String := "--max-line-bytes"

def withLimit (options : Options) (value : String) : Except Request Options :=
  if options.lineLimit.isSome then .error (.refused (.repeated limitOption))
  else
    match parseLimit? value with
    | some limit => .ok { options with lineLimit := some limit }
    | none => .error (.refused (.badValue limitOption value))

def withFile (options : Options) (name : String) : Except Request Options :=
  if options.file.isSome then .error (.refused (.extraArgument name))
  else .ok { options with file := some name }

def withInteractive (options : Options) (argument : String) : Except Request Options :=
  if options.interactive then .error (.refused (.repeated argument))
  else .ok { options with interactive := true }

def withDiagnostics (options : Options) (argument : String) : Except Request Options :=
  if options.diagnostics then .error (.refused (.repeated argument))
  else .ok { options with diagnostics := true }

def withLetter (options : Options) (letter : Char) : Except Request Options :=
  let argument := String.ofList ['-', letter]
  match letter with
  | 'i' => options.withInteractive argument
  | 'd' => options.withDiagnostics argument
  | 'h' => .error .help
  | 'V' => .error .version
  | _ => .error (.refused (.unknownOption argument))

/-- The value in an argument that joins it to the option of the limit. -/
def joinedLimit? (argument : String) : Option String :=
  let start := (limitOption ++ "=").toList
  if start.isPrefixOf argument.toList then
    some (String.ofList (argument.toList.drop start.length))
  else none

def withArgument (options : Options) (argument : String) : Except Request Options :=
  match argument with
  | "--interactive" => options.withInteractive argument
  | "--diagnostics" => options.withDiagnostics argument
  | "--help" => .error .help
  | "--version" => .error .version
  | _ =>
    match joinedLimit? argument, argument.toList with
    | some value, _ => options.withLimit value
    | none, '-' :: '-' :: _ => .error (.refused (.unknownOption argument))
    | none, '-' :: letter :: letters => (letter :: letters).foldlM withLetter options
    | none, _ => options.withFile argument

/-- Reads the arguments that are left. After two dashes all of them are names of files. -/
def read (options : Options) : List String → Except Request Options
  | [] => .ok options
  | "--" :: names => names.foldlM withFile options
  | "--max-line-bytes" :: arguments =>
    match arguments with
    | [] => .error (.refused (.missingValue limitOption))
    | value :: arguments => do (← options.withLimit value).read arguments
  | argument :: arguments => do (← options.withArgument argument).read arguments

end Options

def Request.ofArguments (arguments : List String) : Request :=
  match Options.read {} arguments with
  | .ok options => .start options
  | .error request => request

end ArithLines
