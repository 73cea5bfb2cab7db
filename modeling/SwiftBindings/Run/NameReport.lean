import SwiftBindings.Filters.Basic

/-!
# Reports of names

A verbose run lists the verbatim and the blacklisted names. Beside code on the same stream the list
is a comment of that code.

* `NameReport.text`: the list as it is printed.
-/

namespace SwiftBindings

/-- The verbatim and blacklisted names of a run, and whether they are written as a comment. -/
structure NameReport where
  verbatim : List String
  blacklisted : List String
  commented : Bool
  deriving DecidableEq, Inhabited

namespace NameReport

/-- The report of a run with the given code in one text. -/
def ofRun (f : Filters) (unified : String) : NameReport :=
  ⟨f.verbatim, f.blacklist, unified ≠ ""⟩

/-- What stands before a heading. -/
def headingMark (commented : Bool) : String := if commented then "// " else "** "

/-- What stands before a name. -/
def nameMark (commented : Bool) : String := if commented then "// " else ""

/-- The lines of a list of names under its heading. -/
def sectionLines (commented : Bool) (title : String) (names : List String) : List String :=
  (headingMark commented ++ title ++ ": " ++ toString names.length) ::
    names.map (nameMark commented ++ ·)

/-- The lines of a report. -/
def lines (r : NameReport) : List String :=
  sectionLines r.commented "Verbatim" r.verbatim ++
    sectionLines r.commented "Blacklisted" r.blacklisted

/-- A report as it is printed. -/
def text (r : NameReport) : String := String.join (r.lines.map (· ++ "\n"))

end NameReport

end SwiftBindings
