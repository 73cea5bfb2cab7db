import SwiftBindings.Diagnostic
import SwiftBindings.FileStore.Output
import SwiftBindings.Layout.Chunk
import SwiftBindings.Path.Order

/-!
# Writing chunks

A writer puts chunks into files, keeps the set of files that it has written and tells of every
failure. Bucket files are shared by the types of a module: they are cleared, and made if they are
wanted, before anything is appended to one, and a bucket is only appended to once this run has
written it. Buckets take chunks from when they are opened until they are closed.

* `Writer.prepare`: clears the buckets.
* `Writer.write`: puts one chunk into its file.
* `Writer.openBuckets`, `Writer.closeBuckets`: between them chunks may be sent to buckets.
* `Fault`: how the system may interfere with an operation that would succeed.

A file operation answers, if only with an error, and what is done with the answer is no more than to
note it. So neither the preparation of a bucket nor a write ends without an answer, and nothing
stops those that carry them out or that collect what is told. Nothing is therefore told of work that
breaks off while files are written; the one part of a run that may break off is the synthesizer.
-/

namespace SwiftBindings

/-- How the system interferes with the preparation of a bucket. -/
inductive Fault where
  | none
  /-- The stale file cannot be removed. -/
  | removal
  /-- The new file cannot be written. -/
  | creation
  deriving DecidableEq, Inhabited

/-- The state of writing: the files, what has been written and what there is to tell. -/
structure Writer where
  store : FileStore
  names : FileNames
  preamble : String
  /-- The buckets that this run has written, once chunks may be sent to buckets. -/
  buckets? : Option (List Bucket)
  /-- The buckets that take no more chunks. -/
  closed : List Bucket
  files : PathSet
  diagnostics : List Diagnostic

namespace Writer

/-- A writer before its first chunk. -/
def start (store : FileStore) (names : FileNames) (preamble : String) : Writer :=
  ⟨store, names, preamble, none, [], [], []⟩

/-- The writer with one more diagnostic. -/
def report (w : Writer) (d : Diagnostic) : Writer := { w with diagnostics := w.diagnostics ++ [d] }

/-- The writer with one more written file. -/
def produce (w : Writer) (p : Path) : Writer := { w with files := PathSet.insert p w.files }

/-- The outcome of a write recorded: a written file, or a warning at it. -/
def record (w : Writer) (stage : Stage) (p : Path) : Except FileError Written → Writer
  | .ok _ => w.produce p
  | .error e => w.report ((Diagnostic.warning stage e.detail).located p)

/-- A file overwritten, unless the system refuses to. -/
def overwriteUnless (s : FileStore) (refused : Bool) (p : Path) (preamble content : String) :
    Except FileError Written × FileStore :=
  if refused then (.error ⟨.write, p, .refused⟩, s) else s.overwrite p preamble content

/-- Content appended to a file, unless the system refuses to. -/
def appendUnless (s : FileStore) (refused : Bool) (p : Path) (preamble content : String) :
    Except FileError Written × FileStore :=
  if refused then (.error ⟨.write, p, .refused⟩, s) else s.append p preamble content

/-- A stale file removed, unless the system refuses to. -/
def removeUnless (s : FileStore) (refused : Bool) (p : Path) : Except FileError Bool × FileStore :=
  if refused then (.error ⟨.remove, p, .refused⟩, s) else s.removeStale p

/-- A file replaced by the preamble and its content. -/
def overwrite (w : Writer) (refused : Bool) (p : Path) (content : String) : Writer :=
  let (outcome, store) := overwriteUnless w.store refused p w.preamble content
  { w with store }.record .write p outcome

/-- A bucket cleared and, if wanted, made anew with the preamble alone. The answer says whether it
was made. -/
def prepareBucket (w : Writer) (create : Bool) (fault : Fault) (b : Bucket) : Bool × Writer :=
  let p := w.names.bucketFile b
  match removeUnless w.store (fault = .removal) p with
  | (.error e, store) =>
    -- a bucket that still holds what an earlier run wrote is not made
    (false, { w with store }.report ((Diagnostic.warning .configure e.detail).located p))
  | (.ok _, store) =>
    if create then
      let (outcome, store) := overwriteUnless store (fault = .creation) p w.preamble ""
      (outcome.isOk, { w with store }.record .configure p outcome)
    else (false, { w with store })

/-- Buckets cleared one after the other. The answer lists those that were made. -/
def prepare (w : Writer) (create : Bool) : List (Bucket × Fault) → List Bucket × Writer
  | [] => ([], w)
  | (b, fault) :: rest =>
    let (made, w) := w.prepareBucket create fault b
    let (more, w) := w.prepare create rest
    (if made then b :: more else more, w)

/-- From here on chunks may be sent to buckets. The buckets given are those that are made. -/
def openBuckets (w : Writer) (made : List Bucket) : Writer :=
  { w with buckets? := some made, closed := [] }

/-- From here on no chunks may be sent to buckets, since whoever sends them has finished. -/
def closeBuckets (w : Writer) : Writer := { w with closed := Bucket.all }

/-- Content sent to a bucket that takes it: added to its file if this run has written it, else
replacing it. -/
def send (w : Writer) (refused : Bool) (b : Bucket) (content : String) : Writer :=
  match w.buckets? with
  | none =>
    w.report (.error .write ("no worker for bucket '" ++ String.singleton b.marker ++ "'"))
  | some made =>
    if b ∈ w.closed then
      w.report (.error .write ("bucket '" ++ String.singleton b.marker ++ "' is closed"))
    else
      let p := w.names.bucketFile b
      let (outcome, store) :=
        -- a file of an earlier run is replaced, never added to
        if b ∈ made then appendUnless w.store refused p w.preamble content
        else overwriteUnless w.store refused p w.preamble content
      let made := if outcome.isOk && !made.contains b then b :: made else made
      { w with store, buckets? := some made }.record .write p outcome

/-- A chunk put where it goes. -/
def write (w : Writer) (refused : Bool) (chunk : Chunk) : Writer :=
  match chunk.target with
  | .file p => w.overwrite refused p chunk.content
  | .bucket b => w.send refused b chunk.content

/-- Chunks written one after the other. -/
def writeAll (w : Writer) (chunks : List (Chunk × Bool)) : Writer :=
  chunks.foldl (fun w (chunk, refused) => w.write refused chunk) w

end Writer

end SwiftBindings
