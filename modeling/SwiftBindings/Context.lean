import SwiftBindings.Diagnostic
import SwiftBindings.Filters.SideFile
import SwiftBindings.Registry

/-!
# Contexts

What code is made against: the name of the module, the known names and the filters. A context is
settled before any code is made, and does not change after that.

* `Context.resolve`: loads the filters and forgets the whitelisted names.
* `Context.declare`: makes the module's own names known.
-/

namespace SwiftBindings

/-- What code is made against. -/
structure Context where
  moduleName : String
  registry : Registry
  filters : Filters
  deriving Inhabited

/-- The warning that a side file could not be read. -/
def FileError.sideFileWarning (e : FileError) : Diagnostic :=
  .warning .configure (e.message ++ ", using the default instead")

namespace Context

/-- The context of a module: its filters are loaded, and whitelisted names are forgotten. -/
def resolve (store : FileStore) (dir : Path) (moduleName : String) (known : Registry) :
    Context × List Diagnostic :=
  let (filters, errors) := Filters.load store dir moduleName
  (⟨moduleName, (known.evictAll filters.whitelist).2, filters⟩,
    errors.map FileError.sideFileWarning)

/-- The context in which the declarations of a module are known. -/
def declare (ctx : Context) (m : Module) : Context :=
  { ctx with registry := ctx.registry.preload m }

end Context

end SwiftBindings
