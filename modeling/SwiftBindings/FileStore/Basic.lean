import SwiftBindings.Path.Basic
import SwiftBindings.Table

/-!
# File stores

A file store holds directories and regular files under a root, each at its location, the list of
names that leads to it. Paths are looked up name by name: every step needs a directory to step
from, a dot stays and two dots go up.

* `lookup?_setFile`: a written file is found at its location, and nothing else changes.
* `lookup?_unlink`: a removed file is gone, and nothing else changes.
-/

namespace SwiftBindings

/-- The names that lead from the root to an entry. -/
abbrev Location := List String

/-- What a location holds. -/
inductive Entry where
  | directory
  | file (bytes : ByteArray)

instance : DecidableEq Entry
  | .directory, .directory => isTrue rfl
  | .directory, .file _ => isFalse nofun
  | .file _, .directory => isFalse nofun
  | .file a, .file b =>
    match ByteArray.instDecidableEq a b with
    | isTrue h => isTrue (congrArg Entry.file h)
    | isFalse h => isFalse fun e => h (Entry.file.inj e)

/-- Why a file operation fails. -/
inductive Failure where
  /-- The entry, or a directory on the way to it, is not there. -/
  | missing
  /-- The system refuses the operation. -/
  | refused
  /-- The path holds a NUL byte. -/
  | nulByte
  /-- The file is not UTF-8. -/
  | notText
  deriving DecidableEq, Inhabited

/-- Directories and regular files, with the directory that relative paths start from. The root is
always a directory. -/
structure FileStore where
  entries : Table Location Entry
  working : Location

namespace FileStore

/-- The entry at a location. -/
def lookup? (s : FileStore) (l : Location) : Option Entry :=
  if l = [] then some .directory else s.entries.find? l

/-- The longest name that a file may have, in bytes. -/
def maxNameBytes : Nat := 255

/-- The shortest path that is too long, in bytes. -/
def pathLimit : Nat := 4096

/-- The location that a piece of a path leads to from another one. -/
def step (s : FileStore) (l : Location) (piece : List Char) : Except Failure Location :=
  match s.lookup? l with
  | none => .error .missing
  | some (.file _) => .error .refused
  | some .directory =>
    if piece = [] ∨ piece = ['.'] then .ok l
    else if piece = ['.', '.'] then .ok l.dropLast
    else if maxNameBytes < (String.ofList piece).utf8ByteSize then .error .refused
    else .ok (l ++ [String.ofList piece])

/-- The location that pieces of a path lead to. -/
def walk (s : FileStore) (l : Location) : List (List Char) → Except Failure Location
  | [] => .ok l
  | piece :: rest =>
    match s.step l piece with
    | .error e => .error e
    | .ok l' => s.walk l' rest

/-- The location that a path names. The last step may lead to nothing. -/
def locate (s : FileStore) (p : Path) : Except Failure Location :=
  if p.text.toList.contains (Char.ofNat 0) then .error .nulByte
  else if p.text = "" then .error .missing
  else if pathLimit ≤ p.text.utf8ByteSize then .error .refused
  else s.walk (if p.isAbsolute then [] else s.working) (Text.pieces '/' p.text.toList)

/-- The entry that a path names. -/
def stat (s : FileStore) (p : Path) : Except Failure Entry :=
  match s.locate p with
  | .error e => .error e
  | .ok l =>
    match s.lookup? l with
    | none => .error .missing
    | some entry => .ok entry

/-- Whether a path names an entry. -/
def exists? (s : FileStore) (p : Path) : Bool := (s.stat p).isOk

/-- Whether a path names a directory. -/
def isDirectory (s : FileStore) (p : Path) : Bool :=
  match s.stat p with
  | .ok .directory => true
  | _ => false

/-- The bytes of a regular file. -/
def readBytes (s : FileStore) (p : Path) : Except Failure ByteArray :=
  match s.stat p with
  | .error e => .error e
  | .ok .directory => .error .refused
  | .ok (.file bytes) => .ok bytes

/-- The text of a regular file. -/
def readText (s : FileStore) (p : Path) : Except Failure String :=
  match s.readBytes p with
  | .error e => .error e
  | .ok bytes =>
    match String.fromUTF8? bytes with
    | none => .error .notText
    | some text => .ok text

/-- The store with a file at a location. -/
def setFile (s : FileStore) (l : Location) (bytes : ByteArray) : FileStore :=
  { s with entries := s.entries.insert l (.file bytes) }

/-- The store without the entry at a location. -/
def unlink (s : FileStore) (l : Location) : FileStore :=
  { s with entries := s.entries.erase l }

/-- The store with a directory at a location. -/
def setDirectory (s : FileStore) (l : Location) : FileStore :=
  { s with entries := s.entries.insert l .directory }

/-- A file written whole: it must not be a directory, and the directory that holds it must be
there. -/
def writeBytes (s : FileStore) (p : Path) (bytes : ByteArray) : Except Failure FileStore :=
  match s.locate p with
  | .error e => .error e
  | .ok l =>
    match s.lookup? l with
    | some .directory => .error .refused
    | _ => .ok (s.setFile l bytes)

/-- A regular file removed. -/
def removeFile (s : FileStore) (p : Path) : Except Failure FileStore :=
  match s.locate p with
  | .error e => .error e
  | .ok l =>
    match s.lookup? l with
    | none => .error .missing
    | some .directory => .error .refused
    | some (.file _) => .ok (s.unlink l)

/-- One new directory. -/
def makeDirectory (s : FileStore) (p : Path) : Except Failure FileStore :=
  match s.locate p with
  | .error e => .error e
  | .ok l =>
    match s.lookup? l with
    | none => .ok (s.setDirectory l)
    | some _ => .error .refused

/-- A directory with those above it, given as a path and the paths above that. A directory that is
there already is enough; what was made before a failure stays. -/
def makeDirectories (s : FileStore) : List Path → Except Failure Unit × FileStore
  | [] => (.error .refused, s)
  | dir :: above =>
    if dir.text = "" then (.ok (), s)
    else
      match s.makeDirectory dir with
      | .ok s' => (.ok (), s')
      | .error .missing =>
        match s.makeDirectories above with
        | (.error e, s') => (.error e, s')
        | (.ok (), s') =>
          match s'.makeDirectory dir with
          | .ok s'' => (.ok (), s'')
          -- `a/..` is there once `a` is
          | .error e => if s'.isDirectory dir then (.ok (), s') else (.error e, s')
      | .error e => if s.isDirectory dir then (.ok (), s) else (.error e, s)

/-- A written file is found at its location, and nothing else changes. -/
theorem lookup?_setFile (s : FileStore) {l : Location} (hl : l ≠ []) (bytes : ByteArray)
    (l' : Location) :
    (s.setFile l bytes).lookup? l' = if l = l' then some (.file bytes) else s.lookup? l' := by
  unfold lookup? setFile
  by_cases h : l' = []
  · subst h
    simp [hl]
  · simp [h]

/-- A removed file is gone, and nothing else changes. -/
theorem lookup?_unlink (s : FileStore) {l : Location} (hl : l ≠ []) (l' : Location) :
    (s.unlink l).lookup? l' = if l = l' then none else s.lookup? l' := by
  unfold lookup? unlink
  by_cases h : l' = []
  · subst h
    simp [hl]
  · simp [h]

end FileStore

end SwiftBindings
