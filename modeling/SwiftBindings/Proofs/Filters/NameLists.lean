import SwiftBindings.Filters.SideFile
import SwiftBindings.Proofs.FirstMentions

/-!
# Lists of names

The names that a side file lists form a set: a name that is mentioned again adds nothing. So the
name lists of loaded rules are without repetition, whatever the side files hold.

* `Filters.parseNames_eq`: the names that a text lists are those of its lines, at their first mention.
* `Filters.NamesDistinct`, `namesDistinct_load`: **the name lists of loaded rules are sets.**
-/

namespace SwiftBindings

namespace Filters

/-- The names that a text lists are the first mentions among its lines. -/
theorem parseNames_eq (text : String) :
    parseNames text = firstMentions id (Text.nonEmptyLines text) :=
  (firstMentions_id _).symm

theorem nodup_parseNames (text : String) : (parseNames text).Nodup := by
  have hnodup := nodup_keys_firstMentions id (Text.nonEmptyLines text)
  rw [parseNames_eq]
  rwa [List.map_id] at hnodup

/-- Rules whose name lists are sets. -/
structure NamesDistinct (f : Filters) : Prop where
  blacklist : f.blacklist.Nodup
  whitelist : f.whitelist.Nodup
  verbatim : f.verbatim.Nodup
  overrides : f.overrides.Nodup

/-- A list of names that comes from a side file, or is empty without one, is a set. -/
theorem nodup_rule_parseNames (text? : Option String) : (rule parseNames [] text?).Nodup := by
  cases text? with
  | none => exact List.nodup_nil
  | some text => exact nodup_parseNames text

/-- **The name lists of loaded rules are sets,** whatever the side files hold. -/
theorem namesDistinct_load (store : FileStore) (dir : Path) (moduleName : String) :
    (load store dir moduleName).1.NamesDistinct :=
  ⟨nodup_rule_parseNames _, nodup_rule_parseNames _, nodup_rule_parseNames _,
    nodup_rule_parseNames _⟩

end Filters

end SwiftBindings
