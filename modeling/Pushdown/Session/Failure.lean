import Pushdown.Compiler
import Pushdown.Token.Listing

/-! Everything that can go wrong in a session, with the text shown for it. -/
namespace Pushdown

inductive Failure where
  | parse (error : ReadError)
  | grammar (error : GrammarError)
  | grammarFile (error : Text.StreamError)
  | token (error : Token.UnknownName)
  | tokenFile (error : Text.StreamError)
  | rejected
  | emission (error : EmitError)
  | runtime (fault : Fault)
  /-- A code or data file. -/
  | program (path : String) (error : Text.StreamError)
  | file (error : Text.StreamError)
  /-- The history file. -/
  | history (error : Text.StreamError)

namespace Failure

def message : Failure → String
  | .parse error => s!"Parse error: {error.message}"
  | .grammar error => s!"Grammar error: {error.message}"
  | .grammarFile error => s!"Grammar error: Failed to read grammar: {error.message}"
  | .token error => s!"Token error: {error.message}"
  | .tokenFile error => s!"Token error: Failed to read tokens: {error.message}"
  | .rejected => "Input rejected"
  | .emission error => s!"Translation error: {error.message}"
  | .runtime fault => s!"Runtime error: {fault.message}"
  | .program path error => s!"Failed to access {path}: {error.message}"
  | .file error => s!"I/O error: {error.message}"
  | .history error => error.message

def ofCompileError : CompileError → Failure
  | .unreadable error => .parse error
  | .emission error => .emission error
  | .rejected => .rejected

end Failure

end Pushdown
