import Pushdown.Session.Command
import Pushdown.Session.Task

/-! The session at the prompt. Lines are commands or programs; a failure is shown and the session goes
on. The lines are kept in a history file. -/
namespace Pushdown

/-- The lines that were entered, the last one first. -/
structure History where
  lines : List String := []

namespace History

/-- The most lines that are kept. -/
def limit : Nat := 100

/-- Adds a line, unless it repeats the last one. -/
def add (h : History) (line : String) : History :=
  let line := Text.chomp line
  if h.lines.head? = some line then h else ⟨(line :: h.lines).take limit⟩

def ofText (text : String) : History :=
  (Text.lines text.toList).foldl (fun h line => h.add (String.ofList line)) {}

def render (h : History) : String :=
  String.join (h.lines.reverse.map (· ++ "\n"))

end History

namespace Session

variable {m : Type → Type} [Monad m] [Host m]

def obey (s : Session) : Command → Action m Unit
  | .tokens source => do
    (← scan source).forM fun token => printLine token.render
  | .parse source => do s.showVerdict s.scheme (← scan source)
  | .tree symbol source => do showPhrases s.scheme (← scan source) symbol
  | .code source => do printLine (← s.compile source).program.listing
  | .symbols source => do print (← s.compile source).symbols.render
  | .grammar => printLine s.scheme.render
  | .run source => do
    let emission ← s.compile source
    let _ ← s.execute emission.program none

/-- Does what a line asks for. -/
def answer (s : Session) (line : String) : Action m Unit := do
  s.obey (← need .parse (Command.read line))

/-- Reads a line and answers it; stops at the end of the console. -/
def converse (s : Session) (history : History) : m (History ⊕ History) := do
  match ← Host.readLine with
  | none =>
    Host.printLine "CTRL-D"
    return .inr history
  | some (.error e) =>
    Host.printLine
      ("Error: Io(Error \x7b kind: InvalidData, message: " ++ Text.quoted e.message ++ " \x7d)")
    return .inr history
  | some (.ok line) =>
    if Text.strip line = "" then return .inl history
    else
      match ← (s.answer line).run with
      | .ok _ => pure ()
      | .error failure => Host.printLine failure.message
      return .inl (history.add line)

def loadHistory (s : Session) : Action m History := do
  match ← onHost (Host.readText s.options.history) with
  | .ok text => return .ofText text
  | .error _ =>
    printLine "No previous history."
    return {}

/-- A history without lines is not saved. -/
def saveHistory (s : Session) (history : History) : Action m Unit := do
  if !history.lines.isEmpty then
    need .history (← onHost (Host.writeFile s.options.history history.render))

def prompt (s : Session) : Action m Unit := do
  let history ← s.loadHistory
  s.saveHistory (← onHost (Host.iterate s.converse history))

/-- A whole session. -/
def conduct (options : Options) : Action m Unit := do
  let s ← start options
  match options.task with
  | some task => s.perform task
  | none => s.prompt

end Session

end Pushdown
