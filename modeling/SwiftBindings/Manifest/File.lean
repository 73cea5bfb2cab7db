import SwiftBindings.FileStore.Basic
import SwiftBindings.Manifest.Basic

/-!
# Manifest files

A manifest as it is found in the directory of a library.

* `ManifestFile.read`: the manifest at a path.
* `ManifestFile.find`: the manifest of a directory, if it has one.
-/

namespace SwiftBindings

/-- A manifest with its path and its text. -/
structure ManifestFile where
  path : Path
  content : String
  manifest : Manifest
  deriving Inhabited

namespace ManifestFile

/-- The manifest at a path. -/
def read (store : FileStore) (path : Path) : Except ManifestError ManifestFile :=
  match store.readText path with
  | .error _ => .error (.unreadable path)
  | .ok content =>
    match Manifest.parse content with
    | .error e => .error e
    | .ok manifest => .ok ⟨path, content, manifest⟩

/-- The manifest of a directory, if it has one. -/
def find (store : FileStore) (dir : Path) : Except ManifestError (Option ManifestFile) :=
  let path := dir.join manifestFile
  if store.exists? path then
    match read store path with
    | .error e => .error e
    | .ok file => .ok (some file)
  else .ok none

end ManifestFile

end SwiftBindings
