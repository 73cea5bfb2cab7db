import SwiftBindings.Run.Contribution
import SwiftBindings.Run.Options
import SwiftBindings.Run.Result
import SwiftBindings.Run.Writer

/-!
# Runs

A run settles its context, lets every category contribute and writes what they contribute. What is
written does not depend on the order of writing alone, so a run is split in two: the plan says what
each category contributes, and a schedule in which order buckets are prepared, chunks written and
categories finished, and which of the operations the system refuses. Every category finishes, since
one whose synthesizer breaks off contributes the error.

* `Plan.make`: what a run is going to write and tell.
* `Plan.carryOut`: a plan under a schedule.
* `Plan.inOrder`: the schedule of a run that does one thing after the other, without refusals.
* `run`: a run under that schedule.
-/

namespace SwiftBindings

/-- What a run is going to write and tell. -/
structure Plan where
  options : RunOptions
  context : Context
  /-- What the side files gave cause to tell. -/
  warnings : List Diagnostic
  /-- The text of the module file, which opens the code in one text. -/
  opening : String
  /-- What each category contributes. -/
  contribution : Category → Contribution

/-- In which order a run does its work, and what the system refuses. -/
structure Schedule where
  preparations : List (Bucket × Fault)
  writes : List (Chunk × Bool)
  finished : List Category

namespace Plan

/-- How files are named and types spread over them, for a policy that writes files. -/
def layoutOf (moduleName : String) : OutputPolicy → Option (FileNames × TypeSplit)
  | .unified => none
  | .files dir split => some (⟨dir, moduleName⟩, split)

/-- The plan of a run over a module, `known` being what is known before it. -/
def make (synthesize : Synthesizer) (store : FileStore) (known : Registry) (m : Module)
    (o : RunOptions) : Plan :=
  -- forgotten names come back if the module declares them itself
  let (resolved, warnings) := Context.resolve store o.configDir o.moduleName known
  let context := resolved.declare m
  { options := o
    context
    warnings
    opening := o.boilerplate ++ m.boilerplate
    contribution :=
      Contribution.make synthesize context m o.generateAll (layoutOf o.moduleName o.policy) }

/-- The layout of a plan. -/
def layout? (p : Plan) : Option (FileNames × TypeSplit) :=
  layoutOf p.options.moduleName p.options.policy

/-- The chunks of a plan: the module file, then what the categories contribute. -/
def chunks (p : Plan) : List Chunk :=
  match p.layout? with
  | none => []
  | some (names, _) =>
    ⟨.file names.moduleFile, p.opening⟩ :: Category.all.flatMap fun c => (p.contribution c).chunks

/-- One thing after the other, without refusals. -/
def inOrder (p : Plan) : Schedule :=
  { preparations := Bucket.all.map fun b => (b, .none)
    writes := p.chunks.map fun chunk => (chunk, false)
    finished := Category.all }

/-- The files of a plan written under a schedule: buckets are cleared, made only if types are
spread over them, and then the chunks are written. Buckets are closed when all categories have
finished. -/
def writeFiles (p : Plan) (store : FileStore) (s : Schedule) : Writer :=
  match p.layout? with
  | none => .start store ⟨⟨""⟩, p.options.moduleName⟩ p.context.filters.preamble
  | some (names, split) =>
    let alpha := split = .alphaBuckets
    let (made, w) :=
      (Writer.start store names p.context.filters.preamble).prepare alpha s.preparations
    ((if alpha then w.openBuckets made else w).writeAll s.writes).closeBuckets

/-- The code in one text. -/
def unifiedText (p : Plan) (contributions : List Contribution) : String :=
  match p.layout? with
  | none =>
    p.opening ++ p.context.filters.preamble ++
      "\n\n".intercalate ((contributions.map (·.unified)).filter (· ≠ ""))
  | some _ => ""

/-- The counts of a run. -/
def statsOf (contributions : List Contribution) : RunStats :=
  { generated := contributions.map fun c => (c.category, c.generated)
    blacklisted := (contributions.map (·.blacklisted)).foldr (· + ·) 0
    elided := contributions.flatMap (·.elided) }

/-- The result of a plan under a schedule, and the files after it. -/
def carryOut (p : Plan) (store : FileStore) (s : Schedule) : RunResult × FileStore :=
  let w := p.writeFiles store s
  let contributions := Contribution.arrange (s.finished.map p.contribution)
  let unified := p.unifiedText contributions
  ({ moduleName := p.options.moduleName
     pkgConfigName := p.options.resolvedPkgConfigName
     unified
     outputDir? := p.options.policy.outputDir?
     files := w.files
     diagnostics := p.warnings ++ w.diagnostics ++ contributions.flatMap (·.diagnostics)
     stats := statsOf contributions
     report? := if p.options.verbose then some (.ofRun p.context.filters unified) else none },
    w.store)

end Plan

/-- A run over a module, and the files after it. -/
def run (synthesize : Synthesizer) (steps : List PostStep) (store : FileStore) (known : Registry)
    (m : Module) (o : RunOptions) : RunResult × FileStore :=
  let plan := Plan.make synthesize store known m o
  let (result, store) := plan.carryOut store plan.inOrder
  (result.afterSteps steps, store)

end SwiftBindings
