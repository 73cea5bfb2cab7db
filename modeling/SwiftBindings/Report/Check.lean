import SwiftBindings.Filters.Basic
import SwiftBindings.Report.Terminal
import SwiftBindings.Path.Basic

/-!
# Reports of a check

What is told of modules that are checked without being generated: how many of their declarations
would be, and how large their side files are.

* `CheckReport.isValid`: whether a check has passed.
* `CheckReport.notices`: the report as it is printed.
-/

namespace SwiftBindings

/-- The sizes of the rules for a module. -/
structure FilterCounts where
  blacklist : Nat
  whitelist : Nat
  namespaces : Nat
  callbackSuffixes : Nat
  verbatim : Nat
  overrides : Nat
  deriving DecidableEq, Inhabited

/-- The sizes of rules. -/
def FilterCounts.ofFilters (f : Filters) : FilterCounts :=
  ⟨f.blacklist.length, f.whitelist.length, f.namespaces.size, f.callbackSuffixes.length,
    f.verbatim.length, f.overrides.length⟩

/-- How many declarations a category has, and how many of them are selected. -/
structure CategoryCount where
  category : Category
  declared : Nat
  selected : Nat
  deriving DecidableEq, Inhabited

/-- What is told of one module. -/
structure ModuleCheck where
  moduleName : String
  categories : List CategoryCount
  filters : FilterCounts
  /-- The number of whitelisted names that were known. -/
  evicted : Nat
  warnings : List String
  errors : List String
  deriving Inhabited

namespace ModuleCheck

/-- The number of declarations. -/
def declared (c : ModuleCheck) : Nat := (c.categories.map (·.declared)).foldr (· + ·) 0

/-- The number of selected declarations. -/
def selected (c : ModuleCheck) : Nat := (c.categories.map (·.selected)).foldr (· + ·) 0

/-- What is told of the side files of a module. -/
def filterNotices (c : ModuleCheck) : List Notice :=
  [.heading "Side files",
    .detail "blacklist" (toString c.filters.blacklist),
    .detail "whitelist" (toString c.filters.whitelist ++ " (" ++ toString c.evicted ++
      " known names evicted)"),
    .detail "namespace replacements" (toString c.filters.namespaces),
    .detail "callback suffixes" (toString c.filters.callbackSuffixes),
    .detail "verbatim constants" (toString c.filters.verbatim),
    .detail "overrides" (toString c.filters.overrides)]

/-- What is told of the categories that have declarations. -/
def categoryNotices (c : ModuleCheck) : List Notice :=
  let counts := c.categories.filter fun n => 0 < n.declared
  if counts.isEmpty then []
  else
    .heading "Declarations" :: counts.map fun n =>
      .item (n.category.name ++ ": " ++ toString n.declared ++ " (" ++ toString n.selected ++
        " selected)")

/-- What is told of a module. -/
def notices (c : ModuleCheck) : List Notice :=
  let mark := if c.errors.isEmpty then "✓" else "✗"
  c.errors.map Notice.error ++ c.warnings.map Notice.warning ++
    [.line (mark ++ " " ++ c.moduleName ++ ": " ++ toString c.declared ++ " declarations, " ++
      toString c.selected ++ " selected")] ++
    c.filterNotices ++ c.categoryNotices ++ [.line ""]

end ModuleCheck

/-- What is told of a check. -/
structure CheckReport where
  manifest? : Option Path
  modules : List ModuleCheck
  deriving Inhabited

namespace CheckReport

/-- Whether a check has passed. -/
def isValid (r : CheckReport) : Bool := r.modules.all (·.errors.isEmpty)

/-- The report as it is printed. -/
def notices (r : CheckReport) : List Notice :=
  (match r.manifest? with
    | some path => [.value "Manifest" path.text, .line ""]
    | none => []) ++
    r.modules.flatMap ModuleCheck.notices

end CheckReport

end SwiftBindings
