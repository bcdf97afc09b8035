import Pushdown.Text.Blank

/-! Byte streams read line by line. A line is the bytes up to and including a line feed, or what is
left at the end; it is a text only if its bytes are UTF-8. -/
namespace Pushdown.Text

/-- Why a stream could not be opened, read or written. -/
inductive StreamError where
  /-- The bytes are not UTF-8. -/
  | notText
  | notFound
  | isDirectory
  /-- Something that is no directory stands on the way. -/
  | notDirectory
  | nameTooLong
  /-- A null character stands in the path. -/
  | nullInPath
  | other (reason : String)
deriving Repr, DecidableEq

def StreamError.message : StreamError → String
  | .notText => "stream did not contain valid UTF-8"
  | .notFound => "No such file or directory (os error 2)"
  | .isDirectory => "Is a directory (os error 21)"
  | .notDirectory => "Not a directory (os error 20)"
  | .nameTooLong => "File name too long (os error 36)"
  | .nullInPath => "file name contained an unexpected NUL byte"
  | .other reason => reason

def decode (bytes : List UInt8) : Except StreamError String :=
  match String.fromUTF8? ⟨bytes.toArray⟩ with
  | some s => .ok s
  | none => .error .notText

def encode (s : String) : List UInt8 := s.toUTF8.data.toList

/-- The bytes of the first line, its line feed included, and those after it. -/
def nextLine? (bytes : List UInt8) : Option (List UInt8 × List UInt8) :=
  match bytes.dropWhile (· ≠ 10) with
  | feed :: rest => some (bytes.takeWhile (· ≠ 10) ++ [feed], rest)
  | [] => if bytes.isEmpty then none else some (bytes, [])

theorem length_lt_of_nextLine? {bytes line rest : List UInt8}
    (h : nextLine? bytes = some (line, rest)) : rest.length < bytes.length := by
  unfold nextLine? at h
  split at h
  next hdrop =>
    obtain ⟨-, rfl⟩ := Prod.mk.inj (Option.some.inj h)
    exact length_lt_of_dropWhile_eq_cons hdrop
  next =>
    split at h
    next => cases h
    next hempty =>
      obtain ⟨-, rfl⟩ := Prod.mk.inj (Option.some.inj h)
      exact List.length_pos_iff.2 (by simpa using hempty)

/-- A line without the carriage returns and line feeds at its end. -/
def chomp (line : String) : String :=
  String.ofList (line.toList.reverse.dropWhile fun c => c = '\n' || c = '\r').reverse

/-- The lines of a stream, each a text without its line break or an error. -/
def streamLines (bytes : List UInt8) : List (Except StreamError String) :=
  match h : nextLine? bytes with
  | none => []
  | some (line, rest) =>
    have := length_lt_of_nextLine? h
    (decode line).map chomp :: streamLines rest
termination_by bytes.length

end Pushdown.Text
