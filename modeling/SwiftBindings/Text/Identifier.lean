import SwiftBindings.Text.Case
import SwiftBindings.Text.Pieces

/-!
# Identifiers

Names of a C library are words joined by underscores. Swift members are written in camel case and
types in Pascal case: the words run together, and capitals tell them apart.

* `pascal`: every word with a capital first letter and small letters after it.
* `camel`: the same with a small first letter.
-/

namespace SwiftBindings.Text

/-- A word whose first letter is a capital and whose other letters are small. -/
def capitalize : List Char → List Char
  | [] => []
  | c :: rest => upper c ++ rest.flatMap lower

/-- The words of an underscore-separated name, each capitalized, run together. -/
def pascalOf (s : List Char) : List Char := (pieces '_' s).flatMap capitalize

/-- A name whose first character is small. -/
def uncapitalize : List Char → List Char
  | [] => []
  | c :: rest => lower c ++ rest

/-- Pascal case, `hello_world` being `HelloWorld`. -/
def pascal (s : String) : String := String.ofList (pascalOf s.toList)

/-- Camel case, `HELLO_WORLD` being `helloWorld`. -/
def camel (s : String) : String := String.ofList (uncapitalize (pascalOf s.toList))

end SwiftBindings.Text
