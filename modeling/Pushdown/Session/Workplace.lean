import Pushdown.Session.Host
import Pushdown.Session.Place

/-! A host in memory. Its console input is given in advance, its output is collected, and its files live
in a directory of their own. Each repetition is allowed a number of rounds; a session that needs more
has no outcome. -/
namespace Pushdown

open Text (StreamError)

structure Workplace where
  files : List (Place × List UInt8)
  /-- Console input that has not been read. -/
  console : List UInt8
  printed : String := ""
  /-- The rounds that a repetition may take. -/
  rounds : Nat

namespace Workplace

/-- The file that is always empty and forgets what is written to it. -/
def nullDevice : Place := ⟨.root, ["dev", "null"]⟩

/-- The directories that are there without holding files of the workplace. -/
def bareDirectories : List Place :=
  ["dev", "etc", "proc", "tmp", "usr", "var"].map fun name => ⟨.root, [name]⟩

/-- The content of a file. -/
def find? (w : Workplace) (p : Place) : Option (List UInt8) :=
  if p = nullDevice then some [] else w.files.lookup p

/-- The root, the working directory and those above it are directories, and so is what lies on the way
to a file. -/
def isDirectory (w : Workplace) (p : Place) : Bool :=
  p.names.isEmpty || bareDirectories.contains p ||
    w.files.any fun file => file.1.origin = p.origin && p.names.isPrefixOf file.1.names &&
      p.names ≠ file.1.names

/-- Only a directory leads on to other places. -/
def requireDirectory (w : Workplace) (p : Place) : Except StreamError Unit :=
  if w.isDirectory p then .ok ()
  else if (w.find? p).isSome then .error .notDirectory
  else .error .notFound

def enter (w : Workplace) (p : Place) (name : String) : Except StreamError Place := do
  w.requireDirectory p
  p.step name

def follow (w : Workplace) (start : Place) (names : List String) : Except StreamError Place :=
  names.foldlM w.enter start

/-- The file or directory at the end of a path. -/
def existing (w : Workplace) (path : String) : Except StreamError Place := do
  let path ← Path.read path
  let place ← w.follow path.start path.names
  if path.slashed then w.requireDirectory place
  else if !w.isDirectory place && (w.find? place).isNone then throw .notFound
  return place

/-- The place of a file that is to be written, whether there is one or not. -/
def target (w : Workplace) (path : String) : Except StreamError Place := do
  let path ← Path.read path
  let directory ← w.follow path.start path.names.dropLast
  w.requireDirectory directory
  if path.slashed then throw .isDirectory
  let place ← path.names.getLast?.elim (pure directory) (w.enter directory)
  if w.isDirectory place then throw .isDirectory
  return place

/-- The content at a place; a directory can be opened and not read. -/
def content (w : Workplace) (p : Place) : Except StreamError (List UInt8) :=
  match w.find? p with
  | some bytes => .ok bytes
  | none => .error .isDirectory

/-- Puts content at a place. -/
def put (w : Workplace) (p : Place) (bytes : List UInt8) : Workplace :=
  if p = nullDevice then w
  else { w with files := w.files.filter (·.1 ≠ p) ++ [(p, bytes)] }

/-- Changes of a workplace; nothing if a repetition runs out of rounds. -/
abbrev Action := StateT Workplace Option

/-- Replaces the content of a file by a function of it, or of nothing if the file is new. -/
def update (path : String) (change : List UInt8 → List UInt8) : Action (Except StreamError Unit) :=
  fun w =>
    match w.target path with
    | .ok place => some (.ok (), w.put place (change ((w.find? place).getD [])))
    | .error e => some (.error e, w)

def nextConsoleLine : Action (Option (Except StreamError String)) := fun w =>
  match Text.nextLine? w.console with
  | none => some (none, w)
  | some (line, rest) => some (some (Text.decode line), { w with console := rest })

/-- An open file, with the number of bytes that have been read. -/
structure OpenFile where
  place : Place
  read : Nat := 0

/-- The next line of an open file, as the file is now. -/
def nextFileLine (w : Workplace) (f : OpenFile) : Option (Except StreamError String) × OpenFile :=
  match w.content f.place with
  | .error e => (some (.error e), f)
  | .ok bytes =>
    match Text.nextLine? (bytes.drop f.read) with
    | none => (none, f)
    | some (line, _) => (some (Text.decode line), { f with read := f.read + line.length })

/-- Repeats an action for a number of rounds. -/
def iterate {α β : Type} (act : α → Action (α ⊕ β)) : Nat → α → Action β
  | 0, _ => StateT.lift none
  | rounds + 1, a => do
    match ← act a with
    | .inl a => iterate act rounds a
    | .inr b => return b

instance : Host Action where
  File := OpenFile
  print text := modify fun w => { w with printed := w.printed ++ text }
  readLine := nextConsoleLine
  openFile path := return ((← get).existing path).map fun place => { place := place }
  nextLine file := return (← get).nextFileLine file
  readFile path := return ((← get).existing path).bind (← get).content
  writeFile path text := update path fun _ => Text.encode text
  appendFile path text := update path (· ++ Text.encode text)
  fileExists path := return ((← get).existing path).isOk
  iterate act a := do iterate act (← get).rounds a

end Workplace

end Pushdown
