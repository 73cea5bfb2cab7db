/-!
# TOML values

The values of a TOML document and the rules by which its tables grow. A table remembers how it came
to be, since that decides whether it may be added to.

* `Value.isDefinite`: every number in a value is one that can be told.
* `assign?`: a key, perhaps dotted, set in a table.
* `declareTable?`, `declareItem?`: a table or an item of an array of tables, opened by a header.
-/

namespace SwiftBindings.Toml

/-- How a table came to be. -/
inductive Origin where
  /-- It has a header of its own, or it is the document. -/
  | header
  /-- A header names it on the way to another table. -/
  | implied
  /-- A dotted key names it. -/
  | dotted
  /-- It is written in braces. -/
  | inline
  deriving DecidableEq, Inhabited

/-- A TOML value. Of numbers and dates only their sort is kept. A number may be written well and yet
be too large, or be no number at all, which is found out only when somebody asks for it. -/
inductive Value where
  | string (s : String)
  | integer (definite : Bool)
  | float (definite : Bool)
  | boolean (b : Bool)
  | date
  /-- An array, and whether it is one of tables with headers. -/
  | array (ofTables : Bool) (items : List Value)
  | table (origin : Origin) (entries : List (String × Value))
  deriving Inhabited

mutual

/-- Whether every number in a value can be told. -/
def Value.isDefinite : Value → Bool
  | .integer definite => definite
  | .float definite => definite
  | .array _ items => itemsDefinite items
  | .table _ entries => entriesDefinite entries
  | .string _ | .boolean _ | .date => true

/-- Whether every number in the items of an array can be told. -/
def itemsDefinite : List Value → Bool
  | [] => true
  | v :: rest => v.isDefinite && itemsDefinite rest

/-- Whether every number in the entries of a table can be told. -/
def entriesDefinite : List (String × Value) → Bool
  | [] => true
  | (_, v) :: rest => v.isDefinite && entriesDefinite rest

end

/-- The entries of a table in order. -/
abbrev Entries := List (String × Value)

namespace Entries

/-- The value of a key. -/
def find? (entries : Entries) (key : String) : Option Value := entries.lookup key

/-- The entries with the value of a key replaced. -/
def replace (entries : Entries) (key : String) (v : Value) : Entries :=
  entries.map fun e => if e.1 = key then (key, v) else e

/-- A key set in a table. Every part of a dotted key before the last names a table, which a header
must not have opened, and the table that is set in must come from a dotted key itself. The last
table of an array of tables may be passed through. -/
def assign? (entries : Entries) : List String → Value → Option Entries
  | [], _ => none
  | [key], v => if (entries.find? key).isSome then none else some (entries ++ [(key, v)])
  | key :: next :: rest, v =>
    match entries.find? key with
    | none =>
      (assign? [] (next :: rest) v).map fun inner => entries ++ [(key, .table .dotted inner)]
    | some (.table origin inner) =>
      -- what a header names on the way may be passed through, but is not set in
      if origin = .inline ∨ origin = .header ∨ (rest = [] ∧ origin ≠ .dotted) then none
      else (assign? inner (next :: rest) v).map fun inner =>
        entries.replace key (.table origin inner)
    | some (.array true items) =>
      match items.getLast? with
      | some (.table origin inner) =>
        if rest = [] then none
        else (assign? inner (next :: rest) v).map fun inner =>
          entries.replace key (.array true (items.dropLast ++ [.table origin inner]))
      | _ => none
    | some _ => none

/-- A change made in the table that a path of names leads to. Tables that are not there are made
on the way, and of an array of tables the last is entered. -/
def changeAt? (entries : Entries) : List String → (Entries → Option Entries) → Option Entries
  | [], change => change entries
  | key :: rest, change =>
    match entries.find? key with
    | none => (changeAt? [] rest change).map fun inner => entries ++ [(key, .table .implied inner)]
    | some (.table origin inner) =>
      if origin = .inline then none
      else (changeAt? inner rest change).map fun inner => entries.replace key (.table origin inner)
    | some (.array true items) =>
      match items.getLast? with
      | some (.table origin inner) =>
        (changeAt? inner rest change).map fun inner =>
          entries.replace key (.array true (items.dropLast ++ [.table origin inner]))
      | _ => none
    | some _ => none

/-- A table opened by a header. It must be new, or only named on the way to another. -/
def declareTable? (key : String) (entries : Entries) : Option Entries :=
  match entries.find? key with
  | none => some (entries ++ [(key, .table .header [])])
  | some (.table .implied inner) => some (entries.replace key (.table .header inner))
  | some _ => none

/-- One more item of an array of tables, opened by a header. -/
def declareItem? (key : String) (entries : Entries) : Option Entries :=
  match entries.find? key with
  | none => some (entries ++ [(key, .array true [.table .header []])])
  | some (.array true items) =>
    some (entries.replace key (.array true (items ++ [.table .header []])))
  | some _ => none

end Entries

end SwiftBindings.Toml
