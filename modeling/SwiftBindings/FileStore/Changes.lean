import SwiftBindings.FileStore.Basic

/-!
# Changes of a file store

What has to be done to a file system that holds one store so that it holds another.

* `FileStore.changes`: the changes, in an order in which they can be made.
-/

namespace SwiftBindings

/-- One change of a file system. -/
inductive Change where
  | remove (l : Location)
  | makeDirectory (l : Location)
  | write (l : Location) (bytes : ByteArray)

namespace FileStore

/-- The change that makes a location hold an entry, if it does not hold it already. -/
def changeTo? (before : FileStore) (l : Location) (entry : Entry) : Option Change :=
  if before.lookup? l = some entry then none
  else
    match entry with
    | .directory => some (.makeDirectory l)
    | .file bytes => some (.write l bytes)

/-- The removal of a location that holds nothing any more. -/
def removal? (after : FileStore) (l : Location) : Option Change :=
  if (after.lookup? l).isNone then some (.remove l) else none

/-- The changes from one store to another: removals, then what is new in the order in which it was
made, a directory before what it holds. -/
def changes (before after : FileStore) : List Change :=
  before.entries.keys.filterMap after.removal? ++
    after.entries.entries.filterMap fun (l, entry) => before.changeTo? l entry

end FileStore

end SwiftBindings
