import Pushdown.Grammar.Programs
import Pushdown.Grammar.Reader
import Pushdown.Session.Host
import Pushdown.Session.Options
import Pushdown.Tree.Phrase

/-! Sessions. A session has options and a scheme; it runs the automaton and the machine on its host and
adds what they do to the trace file, if there is one. -/
namespace Pushdown

open Automaton

structure Session where
  options : Options
  scheme : Grammar

/-- Where a machine gets its lines from. -/
inductive Feed (File : Type) where
  | console
  | file (file : File)

/-- Actions of a session that may fail. -/
abbrev Session.Action (m : Type → Type) := ExceptT Failure m

namespace Session

variable {m : Type → Type} [Monad m] [Host m]

/-- An action of the host, which does not fail. -/
def onHost {α : Type} (act : m α) : Action m α := ExceptT.lift act

/-- Passes on a result, with its error made a failure. -/
def need {α ε : Type} (failure : ε → Failure) (result : Except ε α) : Action m α :=
  ExceptT.mk (pure (result.mapError failure))

def print (text : String) : Action m Unit := onHost (Host.print text)

def printLine (line : String) : Action m Unit := onHost (Host.printLine line)

/-- A grammar from a file. -/
def loadGrammar (path : String) : Action m Grammar := do
  let text ← need .grammarFile (← onHost (Host.readText path))
  need .grammar (Grammar.read text)

/-- Starts a session: the scheme is loaded, then the trace file is emptied. -/
def start (options : Options) : Action m Session := do
  let scheme ← match options.scheme with
    | some path => loadGrammar path
    | none => pure Grammar.programScheme
  if let some path := options.trace then
    need .file (← onHost (Host.writeFile path ""))
  return ⟨options, scheme⟩

/-- A trace without entries, if one is to be kept. -/
def blankTrace (s : Session) : Option (Array String) := s.options.trace.map fun _ => #[]

/-- Adds entries to the trace; a trace that cannot be written does not stop the session. -/
def note (s : Session) (entries : Option (Array String)) : m Unit := do
  if let (some path, some entries) := (s.options.trace, entries) then
    let _ ← Host.appendFile path (String.join entries.toList)

/-- The steps that are taken before the host is told of them. -/
def burst : Nat := 4096

/-- Runs an automaton until it stops. -/
def drive {σ ε : Type} (s : Session) (g : Grammar) (routine : Routine σ ε) (c : Config σ) :
    m (Except ε (Config σ)) :=
  Host.iterate (fun c => do
    match Watched.run g routine tracer burst ⟨c, s.blankTrace⟩ with
    | .error e w =>
      s.note w.notes
      return .inr (.error e)
    | .ok _ w =>
      s.note w.notes
      return if w.config.state = .running then .inl w.config else .inr (.ok w.config)) c

/-- Tells whether tokens are accepted. -/
def showVerdict (s : Session) (g : Grammar) (tokens : List Token) : Action m Unit := do
  match ← onHost (s.drive g silent (Config.init g (.ofTokens tokens) ())) with
  | .ok c => printLine (if c.state = .accepted then "accept" else "reject")
  | .error e => nomatch e

/-- Shows the phrases of a symbol. Trees are built without a trace. -/
def showPhrases (g : Grammar) (tokens : List Token) (symbol : Symbol) : Action m Unit := do
  let parse (budget : Nat) : m (Nat ⊕ Option Tree) :=
    match Tree.parse g (.ofTokens tokens) budget with
    | (.running, _) => return .inl (2 * budget)
    | (.accepted, tree) => return .inr (some tree)
    | (.rejected, _) => return .inr none
  match ← onHost (Host.iterate parse 4096) with
  | none => throw .rejected
  | some tree => (tree.phrasesFor g symbol).forM fun phrase => printLine phrase

def scan (source : String) : Action m (List Token) := need .parse (Token.scan source)

def compile (s : Session) (source : String) : Action m Emission := do
  let run ← need .ofCompileError (Compiler.start s.scheme source none)
  let config ← need .emission (← onHost (s.drive s.scheme Emitter.routine run.config))
  need .ofCompileError (Compiler.finish ⟨config, none⟩)

/-- The next line of a feed. The console is asked with a prompt. -/
def readLine : Feed (Host.File m) → m (Option (Except Text.StreamError String) × Feed (Host.File m))
  | .console => do
    Host.print "> "
    return (← Host.readLine, .console)
  | .file file => do
    let (line, file) ← Host.nextLine file
    return (line, .file file)

/-- Takes steps of a machine up to the next line it reads; the step that reads is noted before the feed
is asked for the line. -/
def advance (s : Session) (machine : Machine) (feed : Feed (Host.File m)) :
    m (EStateM.Result Fault Machine.Traced Unit × Feed (Host.File m)) := do
  let t : Machine.Traced := ⟨machine, s.blankTrace⟩
  if machine.awaitsLine then
    let t := t.note
    s.note t.trace
    let (line, feed) ← readLine feed
    let pending := line.toList.map (·.map Text.chomp)
    return (Machine.Traced.step ⟨{ machine with input := ⟨pending⟩ }, none⟩, feed)
  else return (Machine.Traced.runToLine burst t, feed)

/-- Writes down what a machine has done since the host was told last. -/
def report (s : Session) (t : Machine.Traced) : m Unit := do
  s.note t.trace
  t.machine.output.lines.forM Host.printLine

/-- One round of a machine that runs, with everything it does on the host. -/
def round (s : Session) (machine : Machine) (feed : Feed (Host.File m)) :
    m ((Machine × Feed (Host.File m)) ⊕ Except Fault Memory) := do
  match ← s.advance machine feed with
  | (.error fault t, _) =>
    s.report t
    return .inr (.error fault)
  | (.ok _ t, feed) =>
    s.report t
    if t.machine.running then
      return .inl ({ t.machine with output := .printed #[] }, feed)
    else return .inr (.ok t.machine.memory)

/-- Executes a program, with its input from a file or from the console. -/
def execute (s : Session) (program : Program) (input : Option String) : Action m Memory := do
  let feed : Feed (Host.File m) ← match input with
    | none => pure .console
    | some path => Feed.file <$> need .file (← onHost (Host.openFile path))
  let machine := Machine.boot program s.options.memory .none (.printed #[])
  let outcome ← onHost
    (Host.iterate (fun (machine, feed) => s.round machine feed) (machine, feed))
  need .runtime outcome

end Session

end Pushdown
