import SwiftBindings.Command.Footprint
import SwiftBindings.FileStore.Changes

/-!
# The command

Takes up what the command line may look at, answers the command line and puts the changes into
effect.

* `main`: the command.
-/

namespace SwiftBindings

/-- A location as a path of the system. -/
def Location.onDisk (l : Location) : String := "/" ++ "/".intercalate l

/-- The store with what the system holds at a path. A file that cannot be read is taken for a
directory, which cannot be read either. -/
def FileStore.takeEntry (s : FileStore) (p : Path) : IO FileStore := do
  let path := (← IO.currentDir) / p.text
  if ← path.isDir then return (s.makeDirectories p.ancestors).2
  if ← path.pathExists then
    try return (s.put p (← IO.FS.readBinFile path)).2
    catch _ => return (s.makeDirectories p.ancestors).2
  return s

/-- The store with what the system holds at a path and at those above it. -/
def FileStore.takePath (s : FileStore) (p : Path) : IO FileStore :=
  (p.ancestors.filter (·.text ≠ "")).reverse.foldlM takeEntry s

/-- The store with a directory and what it holds. -/
def FileStore.takeDirectory (s : FileStore) (dir : Path) : IO FileStore := do
  let s ← s.takePath dir
  let path := (← IO.currentDir) / dir.text
  if ← path.isDir then
    return ← (← path.readDir).foldlM (fun s entry => s.takeEntry (dir.join ⟨entry.fileName⟩)) s
  return s

/-- The store with what an invocation may look at. -/
def FileStore.takeFootprint (s : FileStore) (i : Invocation) : IO FileStore := do
  let s ← i.manifest?.toList.foldlM takePath s
  let s ← (i.files s).foldlM takePath s
  (i.directories s).foldlM takeDirectory s

/-- A change made. -/
def Change.perform : Change → IO Unit
  | .remove l => IO.FS.removeFile l.onDisk
  | .makeDirectory l => IO.FS.createDirAll l.onDisk
  | .write l bytes => IO.FS.writeBinFile l.onDisk bytes

/-- The store that holds nothing but the working directory. -/
def FileStore.atWorkingDirectory : IO FileStore := do
  let here : Path := ⟨(← IO.currentDir).toString⟩
  let working := here.components.filterMap fun
    | .name text => some text
    | _ => none
  return (FileStore.makeDirectories ⟨.empty, working⟩ here.ancestors).2

end SwiftBindings

open SwiftBindings

/-- The command. -/
def main (args : List String) : IO UInt32 := do
  let start ← FileStore.atWorkingDirectory
  let before ← match Invocation.parse args with
    | .ok invocation => start.takeFootprint invocation
    | .error _ => pure start
  let response := respond before args
  (before.changes response.store).forM Change.perform
  IO.print response.stdout
  IO.eprint response.stderr
  if let some e := response.error? then
    IO.eprintln ("Error: " ++ e.message)
  return response.exit.toUInt32
