import Pushdown.Machine.Memory
import Pushdown.Numeral.Integer

/-! The command line. Options take a value, which follows as the next word or after an equals sign; they
are allowed before and after the name of a task, and the latter wins. A value is judged only when the
next option or operand comes, or at the end, so an unknown word is noticed before a bad value in front
of it. Words behind a lone double dash are operands. -/
namespace Pushdown

/-- What to do instead of starting a session at the prompt. -/
inductive Task where
  /-- Compile a program and execute it. -/
  | run (source : String) (input : Option String)
  /-- Compile a program into a code file and a data file. -/
  | compile (source code data : String)
  /-- Execute a code file; a data file keeps the memory from one time to the next. -/
  | exec (code : String) (data input : Option String)
  /-- Accept or reject a token listing, or show its phrases of a symbol. -/
  | parse (tokens : String) (grammar symbol : Option String)
deriving Repr, DecidableEq

structure Options where
  trace : Option String := none
  history : String := "history.txt"
  scheme : Option String := none
  memory : Nat := Memory.defaultCapacity
  task : Option Task := none
deriving Repr, DecidableEq

/-- Why a command line yields no options. -/
inductive UsageError where
  | help
  | version
  | unknownArgument
  | invalidSubcommand
  /-- A value is missing or empty. -/
  | invalidValue
  /-- A value is not a number in range. -/
  | invalidNumber
  /-- An option is given twice. -/
  | conflict
  | missingArgument
  /-- A value is given to a flag. -/
  | tooManyValues
deriving Repr, DecidableEq

namespace Options

inductive TaskName where
  | run
  | compile
  | exec
  | parse
deriving Repr, DecidableEq

def TaskName.ofWord? : String → Option TaskName
  | "run" => some .run
  | "translate" => some .compile
  | "exec" => some .exec
  | "parse" => some .parse
  | _ => none

inductive Key where
  | trace
  | history
  | scheme
  | memory
  | input
  | code
  | data
  | grammar
  | tree
deriving Repr, DecidableEq

/-- The option of a name, where it is allowed: before a task, or behind one. -/
def Key.ofWord? (task : Option TaskName) (word : String) : Option Key :=
  match word, task with
  | "trace", _ => some .trace
  | "history", _ => some .history
  | "scheme", _ => some .scheme
  | "memory", _ => some .memory
  | "input", some .run => some .input
  | "input", some .exec => some .input
  | "code", some .compile => some .code
  | "data", some .compile => some .data
  | "data", some .exec => some .data
  | "grammar", some .parse => some .grammar
  | "tree", some .parse => some .tree
  | _, _ => none

/-- A number of cells. -/
def readCells (word : String) : Option Nat :=
  (Numeral.readUnsigned word.toList).filter (· < UInt64.size)

/-- Whether a value is fit for an option: paths are not empty, and the memory is a 64-bit number. -/
def Key.judge (key : Key) (value : String) : Except UsageError Unit :=
  match key with
  | .memory => if (readCells value).isSome then .ok () else .error .invalidNumber
  | .tree => .ok ()
  | _ => if value = "" then .error .invalidValue else .ok ()

/-- What was read last and is still to be judged. -/
inductive Pending where
  | nothing
  | option (key : Key) (value : Option String)
  | operand (value : String)
deriving Repr, DecidableEq

/-- The words of one level, before a task or behind it, as far as they have been read. -/
structure Reading where
  /-- The task whose words are read, if any. -/
  task : Option TaskName
  given : List (Key × String) := []
  operand : Option String := none
  /-- Whether an operand has been read, judged or not. -/
  hasOperand : Bool := false
  pending : Pending := .nothing

namespace Reading

def value? (r : Reading) (key : Key) : Option String := r.given.lookup key

/-- Judges what is pending. -/
def settle (r : Reading) : Except UsageError Reading :=
  match r.pending with
  | .nothing => .ok r
  | .option _ none => .error .invalidValue
  | .option key (some value) =>
    if (r.value? key).isSome then .error .conflict
    else (key.judge value).map fun _ =>
      { r with given := (key, value) :: r.given, pending := .nothing }
  | .operand value =>
    if value = "" then .error .invalidValue
    else .ok { r with operand := some value, pending := .nothing }

/-- An option by its long name, perhaps with a value. -/
def long (r : Reading) (name : String) (value : Option String) : Except UsageError Reading :=
  match Key.ofWord? r.task name, value with
  | some key, some value => do
    let r ← r.settle
    { r with pending := .option key (some value) }.settle
  | some key, none => do
    let r ← r.settle
    return { r with pending := .option key none }
  | none, value =>
    let isVersion := name = "version" ∧ r.task = none
    if name = "help" ∨ isVersion then
      if value.isSome then .error .tooManyValues
      else do
        let _ ← r.settle
        .error (if isVersion then .version else .help)
    else .error .unknownArgument

/-- An option by a letter. There are two of them, and neither takes a value. -/
def short (r : Reading) (letter : Char) : Except UsageError Reading :=
  if letter = 'h' then do
    let _ ← r.settle
    .error .help
  else if letter = 'V' ∧ r.task = none then do
    let _ ← r.settle
    .error .version
  else .error .unknownArgument

/-- A word that is neither an option nor the value of one. `literal` tells whether it stands behind a
double dash. -/
def plain (r : Reading) (literal : Bool) (word : String) : Except UsageError Reading :=
  match r.task with
  | none =>
    if literal ∧ ((TaskName.ofWord? word).isSome ∨ word = "help") then .error .unknownArgument
    else .error .invalidSubcommand
  | some _ =>
    if r.hasOperand then .error .unknownArgument
    else do
      let r ← r.settle
      return { r with hasOperand := true, pending := .operand word }

/-- One word that is not the name of a task. -/
def word (r : Reading) (word : String) : Except UsageError Reading :=
  match word.toList with
  | '-' :: '-' :: rest =>
    let name := String.ofList (rest.takeWhile (· ≠ '='))
    match rest.dropWhile (· ≠ '=') with
    | [] => r.long name none
    | _ :: value => r.long name (some (String.ofList value))
  | '-' :: letter :: _ => r.short letter
  | _ =>
    match r.pending with
    | .option key none => .ok { r with pending := .option key (some word) }
    | _ => r.plain false word

/-- Whether the next word is the value of an option, unless it is an option itself. -/
def awaitsValue (r : Reading) : Bool :=
  match r.pending with
  | .option _ none => true
  | _ => false

end Reading

/-- The words of a task. Operands are required, but for the code file of `exec`. -/
def readTask (r : Reading) : List String → Except UsageError Reading
  | [] => do
    let r ← r.settle
    if r.operand = none ∧ r.task ≠ some .exec then .error .missingArgument else .ok r
  | "--" :: words => do
    let r ← words.foldlM (fun r word => r.plain true word) r
    readTask r []
  | word :: words => do readTask (← r.word word) words
termination_by words => words.length
decreasing_by all_goals simp

/-- What `help` says depends on no more than whether it knows the task. -/
def helpOn : List String → UsageError
  | [] => .help
  | [word] => if (TaskName.ofWord? word).isSome ∨ word = "help" then .help else .invalidSubcommand
  | _ => .invalidSubcommand

/-- All words. The words behind the name of a task are read before what is pending in front of it is
judged. -/
def readWords (r : Reading) : List String → Except UsageError (Reading × Option Reading)
  | [] => return (← r.settle, none)
  | "--" :: words => do
    let r ← words.foldlM (fun r word => r.plain true word) r
    return (← r.settle, none)
  | word :: words =>
    match r.awaitsValue, TaskName.ofWord? word with
    | false, some task => do
      let inner ← readTask { task := some task } words
      return (← r.settle, some inner)
    | awaits, _ => do
      if !awaits ∧ word = "help" then .error (helpOn words)
      else readWords (← r.word word) words

/-- The task that was asked for. -/
def taskOf (r : Reading) : Option Task :=
  let operand := r.operand.getD "codefile"
  r.task.map fun
    | .run => .run operand (r.value? .input)
    | .compile =>
      .compile operand ((r.value? .code).getD "codefile") ((r.value? .data).getD "datafile")
    | .exec => .exec operand (r.value? .data) (r.value? .input)
    | .parse => .parse operand (r.value? .grammar) (r.value? .tree)

/-- Options from the words of a command line. -/
def read (words : List String) : Except UsageError Options := do
  let (outer, inner) ← readWords { task := none } words
  let value? (key : Key) : Option String := (inner.bind (·.value? key)) <|> outer.value? key
  let defaults : Options := {}
  return {
    trace := value? .trace
    history := (value? .history).getD defaults.history
    scheme := value? .scheme
    memory := ((value? .memory).bind readCells).getD defaults.memory
    task := inner.bind taskOf }

end Options

end Pushdown
