import Pushdown.Session.Failure

/-! What a session needs of its surroundings: a console, files, and the patience for runs that may not
end. A session is written against this interface, so that it can be run on the real console and
files as well as on ones kept in memory. -/
namespace Pushdown

open Text (StreamError)

class Host (m : Type → Type) where
  /-- A file that is open, as far as it has been read. -/
  File : Type
  /-- Writes to the console. -/
  print : String → m Unit
  /-- The next line of the console with its line break, or nothing at the end. -/
  readLine : m (Option (Except StreamError String))
  openFile : String → m (Except StreamError File)
  /-- The next line of an open file with its line break, or nothing at the end. What has been added to
  the file since it was opened is read too. -/
  nextLine : File → m (Option (Except StreamError String) × File)
  /-- The whole content of a file. -/
  readFile : String → m (Except StreamError (List UInt8))
  /-- Creates a file or replaces its content. -/
  writeFile : String → String → m (Except StreamError Unit)
  /-- Adds to the end of a file. -/
  appendFile : String → String → m (Except StreamError Unit)
  fileExists : String → m Bool
  /-- Repeats an action until it yields a result. -/
  iterate {α β : Type} : (α → m (α ⊕ β)) → α → m β

namespace Host

variable {m : Type → Type} [Monad m] [Host m]

def printLine (line : String) : m Unit := print (line ++ "\n")

/-- The content of a file that holds text. -/
def readText (path : String) : m (Except StreamError String) := do
  return (← readFile path).bind Text.decode

end Host

end Pushdown
