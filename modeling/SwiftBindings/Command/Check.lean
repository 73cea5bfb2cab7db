import SwiftBindings.Command.Inputs
import SwiftBindings.Context
import SwiftBindings.Filters.Selection
import SwiftBindings.Report.Check

/-!
# Checking

Every description is loaded and the filters of its module are settled, and the declarations that
would be generated are counted.

* `checkModule`: the check of one module.
* `check`: the check of all inputs.
-/

namespace SwiftBindings

/-- How many declarations of a category there are, and how many of them are selected. -/
def CategoryCount.of (m : Module) (f : Filters) (generateAll : Bool) (c : Category) :
    CategoryCount :=
  ⟨c, (m.of c).length, (Selection.select m c f generateAll).declarations.length⟩

/-- The check of one module, `known` being what the prerequisites make known. -/
def checkModule (store : FileStore) (configDir : Path) (known : Registry) (generateAll : Bool)
    (moduleName : String) (m : Module) : ModuleCheck :=
  let (ctx, diagnostics) := Context.resolve store configDir moduleName known
  let told := diagnostics.filter (·.severity ≠ .info)
  { moduleName
    categories := Category.all.map (CategoryCount.of m ctx.filters generateAll)
    filters := .ofFilters ctx.filters
    evicted := (ctx.filters.whitelist.filter known.isKnown).length
    warnings := (told.filter fun d => !d.isError).map Diagnostic.describe
    errors := (told.filter (·.isError)).map Diagnostic.describe }

/-- The checks of descriptions, one after the other. -/
def checkFiles (store : FileStore) (configDir : Path) (known : Registry) (generateAll : Bool) :
    List Path → Except LoadError (List ModuleCheck)
  | [] => .ok []
  | ir :: rest =>
    match loadModule store ir with
    | .error e => .error e
    | .ok m =>
      match checkFiles store configDir known generateAll rest with
      | .error e => .error e
      | .ok checks =>
        .ok (checkModule store configDir known generateAll ir.moduleName m :: checks)

/-- The check of all inputs. The manifest is only told of. -/
def check (store : FileStore) (inputs : Inputs) (manifest? : Option Path) (generateAll : Bool) :
    Except LoadError CheckReport :=
  match loadRegistry store inputs.prerequisites with
  | .error e => .error e
  | .ok known =>
    match checkFiles store inputs.configDir known generateAll inputs.irFiles with
    | .error e => .error e
    | .ok modules => .ok ⟨manifest?, modules⟩

end SwiftBindings
