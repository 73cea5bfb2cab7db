import SwiftBindings.FileStore.Basic

/-!
# Output files

Generated files are written in two ways: overwritten with a preamble and their content, or appended
to when this run has created them. Stale files are removed.

* `FileError.message`: what is told of a failure.
* `append_of_not_exists`: appending to a file that is not there is overwriting it.
-/

namespace SwiftBindings

/-- What was tried when a file operation failed. -/
inductive FileAction where
  | create
  | write
  | read
  | remove
  deriving DecidableEq, Inhabited

/-- The verb of an action. -/
def FileAction.verb : FileAction → String
  | .create => "create"
  | .write => "write"
  | .read => "read"
  | .remove => "remove"

/-- The cause of a failure in words. What the operating system would say is left out. -/
def Failure.cause? : Failure → Option String
  | .nulByte => some "file name contained an unexpected NUL byte"
  | .notText => some "stream did not contain valid UTF-8"
  | .missing | .refused => none

/-- A failed file operation. -/
structure FileError where
  action : FileAction
  path : Path
  failure : Failure
  deriving DecidableEq, Inhabited

/-- What failed. -/
def FileError.message (e : FileError) : String :=
  s!"failed to {e.action.verb} '" ++ e.path.text ++ "'"

/-- What failed and why. -/
def FileError.detail (e : FileError) : String :=
  match e.failure.cause? with
  | some cause => e.message ++ ": " ++ cause
  | none => e.message

/-- How a file came to hold what was written. -/
inductive Written where
  | created
  | appended
  deriving DecidableEq, Inhabited

namespace FileStore

/-- A file and the directories above it, made to hold the given bytes. -/
def put (s : FileStore) (p : Path) (bytes : ByteArray) : Except FileError Unit × FileStore :=
  match p.parent? with
  | none => finish s
  | some dir =>
    match s.makeDirectories dir.ancestors with
    | (.error e, s') => (.error ⟨.create, dir, e⟩, s')
    | (.ok (), s') => finish s'
where
  /-- The write itself, once the directories are there. -/
  finish (s : FileStore) : Except FileError Unit × FileStore :=
    match s.writeBytes p bytes with
    | .error e => (.error ⟨.write, p, e⟩, s)
    | .ok s' => (.ok (), s')

/-- A file made to hold a preamble and its content, whatever it held before. -/
def overwrite (s : FileStore) (p : Path) (preamble content : String) :
    Except FileError Written × FileStore :=
  match s.put p (preamble ++ content).toUTF8 with
  | (.error e, s') => (.error e, s')
  | (.ok (), s') => (.ok .created, s')

/-- Content added to the end of a file. A file that is not there is created with the preamble. -/
def append (s : FileStore) (p : Path) (preamble content : String) :
    Except FileError Written × FileStore :=
  if s.exists? p then
    -- read before anything is written, so that a file that is no text stays as it is
    match s.readText p with
    | .error e => (.error ⟨.read, p, e⟩, s)
    | .ok text =>
      match s.put p (text ++ content).toUTF8 with
      | (.error e, s') => (.error e, s')
      | (.ok (), s') => (.ok .appended, s')
  else s.overwrite p preamble content

/-- A file removed if it is there. The answer says whether it was. -/
def removeStale (s : FileStore) (p : Path) : Except FileError Bool × FileStore :=
  match s.removeFile p with
  | .ok s' => (.ok true, s')
  | .error .missing => (.ok false, s)
  | .error e => (.error ⟨.remove, p, e⟩, s)

/-- Appending to a file that is not there is overwriting it. -/
theorem append_of_not_exists {s : FileStore} {p : Path} (h : s.exists? p = false)
    (preamble content : String) :
    s.append p preamble content = s.overwrite p preamble content := by
  simp [append, h]

end FileStore

end SwiftBindings
