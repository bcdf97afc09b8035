import Pushdown.Session.Options
import Pushdown.Session.Prompt

/-! The command line program: a session on the real console and files. -/
namespace Pushdown.Main

open Text (StreamError)

def streamError : IO.Error → StreamError
  | .noFileOrDirectory .. => .notFound
  | .inappropriateType _ 21 _ => .isDirectory
  | .inappropriateType .. => .notDirectory
  | .invalidArgument _ 22 _ => .nullInPath
  | .invalidArgument _ 36 _ => .nameTooLong
  | error => .other (toString error)

/-- The outcome of an action on a file. -/
def attempt {α : Type} (act : IO α) : IO (Except StreamError α) := do
  match ← act.toBaseIO with
  | .ok a => return .ok a
  | .error e => return .error (streamError e)

/-- The rest of a line in front of which some bytes have been read. -/
partial def lineAfter (stream : IO.FS.Stream) (bytes : Array UInt8) : IO (Array UInt8) := do
  match (← stream.read 1).data.toList with
  | [] => return bytes
  | byte :: _ =>
    if byte = 10 then return bytes.push byte else lineAfter stream (bytes.push byte)

/-- The next line of a stream, or nothing at the end. -/
def nextLine (stream : IO.FS.Stream) : IO (Option (Except StreamError String)) := do
  match ← attempt (lineAfter stream #[]) with
  | .error e => return some (.error e)
  | .ok bytes => return if bytes.isEmpty then none else some (Text.decode bytes.toList)

partial def iterate {α β : Type} (act : α → IO (α ⊕ β)) (a : α) : IO β := do
  match ← act a with
  | .inl a => iterate act a
  | .inr b => return b

instance : Host IO where
  File := IO.FS.Handle
  print text := do
    let console ← IO.getStdout
    console.putStr text
    console.flush
  readLine := do nextLine (← IO.getStdin)
  openFile path := attempt (IO.FS.Handle.mk path .read)
  nextLine file := return (← nextLine (.ofHandle file), file)
  readFile path := attempt do return (← IO.FS.readBinFile path).data.toList
  writeFile path text := attempt (IO.FS.writeFile path text)
  appendFile path text := attempt do (← IO.FS.Handle.mk path .append).putStr text
  fileExists path := do return (← attempt (IO.FS.Handle.mk path .read)).isOk
  iterate := iterate

def usage : String := "\n".intercalate [
  "Usage: pushdown [OPTIONS] [TASK]",
  "",
  "Tasks:",
  "  run <SOURCE> [--input <FILE>]",
  "  translate <SOURCE> [--code <FILE>] [--data <FILE>]",
  "  exec [<CODE>] [--data <FILE>] [--input <FILE>]",
  "  parse <TOKENS> [--grammar <FILE>] [--tree <SYMBOL>]",
  "",
  "Options:",
  "  --trace <FILE>",
  "  --history <FILE>",
  "  --scheme <FILE>",
  "  --memory <CELLS>",
  "  -h, --help",
  "  -V, --version"]

end Pushdown.Main

open Pushdown in
def main (words : List String) : IO UInt32 := do
  match Options.read words with
  | .error .help =>
    IO.println Main.usage
    return 0
  | .error .version =>
    IO.println "pushdown 0.1.0"
    return 0
  | .error _ =>
    IO.eprintln Main.usage
    return 2
  | .ok options =>
    match ← (Session.conduct options : Session.Action IO Unit).run with
    | .ok _ => return 0
    | .error failure =>
      IO.eprintln s!"Failure: {failure.message}"
      return 1
