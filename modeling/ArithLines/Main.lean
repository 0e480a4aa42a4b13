import ArithLines.Program
import ArithLines.Terminal

/-! The command line: files, standard streams and a printer for terminals around the program's
task. -/

namespace ArithLines.Main

def writeBytes (stream : IO.FS.Stream) (bytes : List UInt8) : IO Unit := do
  stream.write (ByteArray.mk bytes.toArray)
  stream.flush

def writeResponse (response : Program.Response) : IO UInt32 := do
  (← IO.getStderr).putStr response.errors
  writeBytes (← IO.getStdout) response.output
  return response.code.toUInt32

/-- Reads the bytes of one line, and `none` at the end of the input. The bytes read so far come
newest first. -/
partial def readLine (stream : IO.FS.Stream) (soFar : List UInt8) : IO (Option (List UInt8)) := do
  match (← stream.read 1).toList with
  | [] => return if soFar.isEmpty then none else some soFar.reverse
  | byte :: _ => if byte = 0x0a then return some soFar.reverse else readLine stream (byte :: soFar)

partial def converse (stdin stdout stderr : IO.FS.Stream) : IO Unit := do
  writeBytes stdout (Text.Utf8.encode Session.prompt.toList)
  let reply := ((← readLine stdin []).map (Session.reply Terminal.print)).getD Session.farewell
  stderr.putStr reply.errors
  writeBytes stdout (Text.Utf8.encode reply.output.toList)
  unless reply.isLast do converse stdin stdout stderr

/-- Reads a stream to its end. The chunks read so far come newest first. -/
partial def readAll (stream : IO.FS.Stream) (soFar : List (List UInt8)) : IO (List UInt8) := do
  let chunk := (← stream.read 65536).toList
  if chunk.isEmpty then return soFar.reverse.flatten else readAll stream (chunk :: soFar)

def readContents (stream : IO.FS.Stream) : IO Opening := do
  try return .contents (← readAll stream [])
  catch _ => return .unreadable

def openFile (path : String) : IO Opening := do
  let opened ← (IO.FS.Handle.mk path .read).toBaseIO
  match opened with
  | .ok handle => readContents (IO.FS.Stream.ofHandle handle)
  | .error _ => return .missing

def openSource (source : Source) : IO Opening := do
  match source with
  | .standardInput => readContents (← IO.getStdin)
  | .file path => openFile path

end ArithLines.Main

open ArithLines in
def main (arguments : List String) : IO UInt32 := do
  match Program.task arguments with
  | .answer response => Main.writeResponse response
  | .batch settings =>
    Main.writeResponse (Program.batch Terminal.print settings (← Main.openSource settings.source))
  | .session =>
    let stdout ← IO.getStdout
    stdout.putStr (Session.banner Program.name Program.version)
    Main.converse (← IO.getStdin) stdout (← IO.getStderr)
    return 0
