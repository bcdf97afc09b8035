import Pushdown.Session.Basic

/-! Tasks: what a session does when it is not at the prompt. Files are read and written in a fixed order,
so it is settled which of several errors is met first. -/
namespace Pushdown.Session

variable {m : Type → Type} [Monad m] [Host m]

/-- The program in a source file. -/
def readSource (path : String) : Action m String := do
  need .file (← onHost (Host.readText path))

/-- The text of a code or data file. -/
def readCells (path : String) : Action m String := do
  need (.program path) (← onHost (Host.readText path))

/-- Writes a code or data file. -/
def writeCells (path : String) (cells : Array Cell) : Action m Unit := do
  need (.program path) (← onHost (Host.writeFile path (Program.cellText cells)))

/-- A program from its files. There need not be a data file. -/
def loadProgram (code : String) (data : Option String) : Action m Program := do
  let codeText ← readCells code
  let dataText ← match data with
    | none => pure none
    | some path =>
      if ← onHost (Host.fileExists path) then some <$> readCells path else pure none
  return Program.read codeText dataText

/-- The tokens in a listing. -/
def loadTokens (g : Grammar) (path : String) : Action m (List Token) := do
  let text ← need .tokenFile (← onHost (Host.readText path))
  need .token (Token.ofListing g.isVocabulary text)

def perform (s : Session) : Task → Action m Unit
  | .run source input => do
    let emission ← s.compile (← readSource source)
    let _ ← s.execute emission.program input
  | .compile source code data => do
    let emission ← s.compile (← readSource source)
    writeCells code emission.program.code
    writeCells data emission.program.data.cells
    print emission.symbols.render
  | .exec code data input => do
    let program ← loadProgram code data
    let memory ← s.execute program input
    if let some path := data then writeCells path memory.cells
  | .parse tokens grammar symbol => do
    let g ← match grammar with
      | some path => loadGrammar path
      | none => pure s.scheme
    let tokens ← loadTokens g tokens
    match symbol with
    | some symbol => showPhrases g tokens symbol
    | none => s.showVerdict g tokens

end Pushdown.Session
