import ArithLines.Batch.Run
import ArithLines.Folder
import ArithLines.Options
import ArithLines.Session

/-! The whole program as a function of its arguments and its input, for any printer of reports. -/

namespace ArithLines.Program

def name : String := "exprcheck"

def version : String := "0.1.0"

def helpText : String :=
  String.join (List.map (· ++ "\n")
    ["Checks one arithmetic expression or assignment per line and explains rejections",
      "",
      "Usage: exprcheck [OPTIONS] [FILE]",
      "",
      "Arguments:",
      "  [FILE]  Input file, one expression per line ('-' reads stdin) [default: scanme.txt]",
      "",
      "Options:",
      "  -i, --interactive         Start in interactive mode",
      "  -d, --diagnostics         Print a detailed report for every invalid line on stderr",
      "      --max-line-bytes <N>  Truncate longer lines with a warning [default: 1023]",
      "  -h, --help                Print help",
      "  -V, --version             Print version"])

structure Response where
  code : Nat
  output : List UInt8
  errors : String
deriving DecidableEq

def Response.ofText (text : String) : Response := ⟨0, Text.Utf8.encode text.toList, ""⟩

inductive Task where
  | answer (response : Response)
  | session
  | batch (settings : Settings)

def settings (options : Options) : Settings :=
  let standard : Settings := {}
  { source := (options.file.map Source.ofArgument).getD standard.source
    lineLimit := options.lineLimit.getD standard.lineLimit
    diagnostics := options.diagnostics }

/-- In a session no other option has an effect. -/
def task (arguments : List String) : Task :=
  match Request.ofArguments arguments with
  | .help => .answer (.ofText helpText)
  | .version => .answer (.ofText (name ++ " " ++ version ++ "\n"))
  | .refused refusal => .answer ⟨2, [], "error: " ++ refusal.message ++ "\n"⟩
  | .start options => if options.interactive then .session else .batch (settings options)

/-- How a failure is reported to the user. -/
def complaint (failure : Failure) : String := "Error: " ++ failure.message ++ "\n"

def Response.ofProgress (progress : Batch.Progress) : Response :=
  let notices := String.join progress.notices.toList
  match progress.fault with
  | none => ⟨0, progress.sink.written.toList, notices⟩
  | some fault => ⟨1, progress.sink.written.toList, notices ++ complaint fault.failure⟩

/-- Checks the lines of a file that was opened under the name in the settings. -/
def batch (printer : Printer) (settings : Settings) (opening : Opening) : Response :=
  match opening with
  | .contents bytes => .ofProgress (Batch.run printer settings { bytes } {})
  | .missing => ⟨1, [], complaint (.opening settings.source.name)⟩
  | .unreadable => ⟨1, [], complaint .reading⟩

def openSource (source : Source) (input : List UInt8) (folder : Folder) : Opening :=
  match source with
  | .standardInput => .contents input
  | .file path => folder.openFile path

def session (printer : Printer) (input : List UInt8) : Response :=
  { Response.ofText (Session.banner name version ++ Session.output printer input) with
    errors := Session.errors printer input }

/-- A run of the program in a folder, with the given standard input. -/
def run (printer : Printer) (arguments : List String) (input : List UInt8) (folder : Folder) :
    Response :=
  match task arguments with
  | .answer response => response
  | .session => session printer input
  | .batch settings => batch printer settings (openSource settings.source input folder)

end ArithLines.Program
