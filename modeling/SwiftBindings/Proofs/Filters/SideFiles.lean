import SwiftBindings.Context
import SwiftBindings.Proofs.Filters.Loading
import SwiftBindings.Proofs.Filters.NamespaceLines
import SwiftBindings.Proofs.Registry.Lookup

/-!
# Side files one by one

A file store has one of three things for a side file: nothing, a text, or something that cannot be
read as a text. What this is for one file settles the rule that the file gives, whatever the other
files are, and whether an error is told of it.

* `FileStore.stateAt`, `SideFile.state`: what a store has for a side file.
* `SideFile.ruleOf_load`: **each rule is settled by its own file,** one statement for all seven.
* `SideFile.errors_load`: the errors are those of the files that cannot be read, in reading order.
* `SideFile.listed_rule`: what a side file lists is not empty and of one line.
* `Filters.side_files_independent`: **side files are read, and fail, independently.**
-/

namespace SwiftBindings

/-- What a file store has for a side file. -/
inductive SideFile.State where
  /-- Nothing is there. -/
  | absent
  /-- A file with a text is there. -/
  | readable (text : String)
  /-- Something else is there: a directory, bytes that are no text, or a path that cannot be
  followed to its end. -/
  | unreadable (cause : Failure)
  deriving DecidableEq, Inhabited

/-- What a store has at a path. -/
def FileStore.stateAt (s : FileStore) (p : Path) : SideFile.State :=
  match s.stat p with
  | .error .missing => .absent
  | .error cause => .unreadable cause
  | .ok .directory => .unreadable .refused
  | .ok (.file bytes) =>
    match String.fromUTF8? bytes with
    | some text => .readable text
    | none => .unreadable .notText

namespace SideFile

/-! ## States -/

namespace State

/-- The text that can be read. -/
def text? : State → Option String
  | .readable text => some text
  | .absent | .unreadable _ => none

/-- Why nothing can be read of what is there. -/
def cause? : State → Option Failure
  | .unreadable cause => some cause
  | .absent | .readable _ => none

end State

variable (f : SideFile) (store : FileStore) (dir : Path) (name : String)

/-- What a store has for a side file of a module. -/
def state : State := store.stateAt (f.path dir name)

/-- **A side file is read as its state says.** -/
theorem read_eq_of_state :
    f.read store dir name =
      match f.state store dir name with
      | .absent => .ok none
      | .readable text => .ok (some text)
      | .unreadable cause => .error ⟨.read, f.path dir name, cause⟩ := by
  unfold read state FileStore.stateAt FileStore.readText FileStore.readBytes
  cases store.stat (f.path dir name) with
  | error e => cases e <;> rfl
  | ok entry =>
    cases entry with
    | directory => rfl
    | file bytes =>
      dsimp only
      cases String.fromUTF8? bytes <;> rfl

theorem text?_eq : f.text? store dir name = (f.state store dir name).text? := by
  unfold text?
  rw [read_eq_of_state]
  cases f.state store dir name <;> rfl

theorem error?_eq :
    f.error? store dir name =
      (f.state store dir name).cause?.map fun cause => ⟨.read, f.path dir name, cause⟩ := by
  unfold error?
  rw [read_eq_of_state]
  cases f.state store dir name <;> rfl

/-! ## Rules -/

/-- What a side file gives: a table, a text or a list of names. -/
def Rule : SideFile → Type
  | .namespaces => Table String String
  | .preamble => String
  | .blacklist | .whitelist | .callbackSuffixes | .verbatim | .overrides => List String

/-- The rule among those of a module that a side file gives. -/
def ruleOf (r : Filters) : (f : SideFile) → f.Rule
  | .blacklist => r.blacklist
  | .whitelist => r.whitelist
  | .callbackSuffixes => r.callbackSuffixes
  | .namespaces => r.namespaces
  | .verbatim => r.verbatim
  | .overrides => r.overrides
  | .preamble => r.preamble

/-- The rule that a text gives. -/
def parse : (f : SideFile) → String → f.Rule
  | .blacklist | .whitelist | .verbatim | .overrides => Filters.parseNames
  | .callbackSuffixes => Text.nonEmptyLines
  | .namespaces => Filters.parseNamespaces
  | .preamble => id

/-- The rule that a state gives: that of the text, or the default. -/
def rule (f : SideFile) : State → f.Rule
  | .readable text => f.parse text
  | .absent | .unreadable _ => ruleOf .default f

/-- The names, endings, keys and values of a rule. -/
def listed : (f : SideFile) → f.Rule → List String
  | .blacklist, names | .whitelist, names | .callbackSuffixes, names | .verbatim, names
  | .overrides, names => names
  | .namespaces, table => (Table.entries table).flatMap fun e => [e.1, e.2]
  | .preamble, _ => []

/-- **Each rule is settled by its own side file.** -/
theorem ruleOf_load :
    ruleOf (Filters.load store dir name).1 f = f.rule (f.state store dir name) := by
  have hload : ruleOf (Filters.load store dir name).1 f =
      Filters.rule f.parse (ruleOf .default f) (f.text? store dir name) := by
    unfold Filters.load
    -- what is read plays no part in which rule goes where
    rw [show f.text? store dir name = (fun f : SideFile => f.text? store dir name) f from rfl]
    generalize (fun f : SideFile => f.text? store dir name) = read
    cases f <;> rfl
  rw [hload, text?_eq]
  cases f.state store dir name <;> rfl

/-- What a text lists is not empty and of one line. -/
theorem listed_parse {text s : String} (hs : s ∈ f.listed (f.parse text)) :
    s ≠ "" ∧ Text.OneLine s := by
  have hline : s ∈ Text.nonEmptyLines text → s ≠ "" ∧ Text.OneLine s := by
    intro h
    obtain ⟨line, hm, rfl⟩ := List.mem_map.1 h
    obtain ⟨hne, hfeed⟩ := Text.mem_nonEmptyLines hm
    exact ⟨fun hempty => hne (String.ofList_eq_empty_iff.1 hempty), Text.oneLine_ofList.2 hfeed⟩
  have hname : s ∈ Filters.parseNames text → s ≠ "" ∧ Text.OneLine s :=
    fun h => hline (List.mem_eraseDups.1 h)
  cases f with
  | blacklist | whitelist | verbatim | overrides => exact hname hs
  | callbackSuffixes => exact hline hs
  | namespaces =>
    obtain ⟨e, he, hfield⟩ := List.mem_flatMap.1 hs
    obtain ⟨hkey, hvalue⟩ := Filters.isField_of_mem_parseNamespaces he
    rcases List.mem_cons.1 hfield with rfl | hfield
    · exact ⟨hkey.1, hkey.2.2⟩
    · rw [List.mem_singleton.1 hfield]
      exact ⟨hvalue.1, hvalue.2.2⟩
  | preamble => exact absurd hs List.not_mem_nil

/-- What the defaults list is not empty and of one line. -/
theorem listed_default :
    ∀ s ∈ f.listed (ruleOf .default f), s ≠ "" ∧ Text.OneLine s := by
  cases f <;> decide

/-- **What a rule lists is not empty and of one line,** whatever a store has for its side file. -/
theorem listed_rule (st : State) : ∀ s ∈ f.listed (f.rule st), s ≠ "" ∧ Text.OneLine s := by
  intro s hs
  cases st with
  | readable text => exact f.listed_parse hs
  | absent | unreadable cause => exact f.listed_default s hs

/-! ## Errors -/

/-- **The errors are those of the side files that cannot be read,** in reading order. -/
theorem errors_load :
    (Filters.load store dir name).2 =
      all.filterMap fun f =>
        (f.state store dir name).cause?.map fun cause => ⟨.read, f.path dir name, cause⟩ := by
  have herror : (fun f : SideFile => f.error? store dir name) = fun f : SideFile =>
      (f.state store dir name).cause?.map fun cause => ⟨.read, f.path dir name, cause⟩ :=
    funext fun f => error?_eq f store dir name
  rw [← herror]
  rfl

theorem nodup_all : all.Nodup := by decide

/-- Different side files have different paths. -/
theorem path_inj {f g : SideFile} (h : f.path dir name = g.path dir name) : f = g := by
  rw [path_eq, path_eq, Path.mk.injEq, String.append_right_inj] at h
  revert h
  cases f <;> cases g <;> decide

/-- Every error is told of a file of its own. -/
theorem nodup_paths_errors : ((Filters.load store dir name).2.map (·.path)).Nodup := by
  have hpaths : (Filters.load store dir name).2.map (·.path) =
      (all.filter fun f => (f.state store dir name).cause?.isSome).map (·.path dir name) := by
    rw [errors_load]
    induction all with
    | nil => rfl
    | cons f rest ih =>
      cases hcause : (f.state store dir name).cause? with
      | none => simp [hcause, ih]
      | some cause => simp [hcause, ih]
  rw [hpaths]
  exact (nodup_all.filter _).map fun f g h => path_inj dir name h

end SideFile

namespace Filters

variable (store : FileStore) (dir : Path) (name : String)

/-- What is told of an error of a side file names the file. -/
theorem sideFileWarning_eq {e : FileError} (h : e ∈ (load store dir name).2) :
    e.sideFileWarning =
      .warning .configure ("failed to read '" ++ e.path.text ++ "', using the default instead") := by
  rw [SideFile.errors_load] at h
  obtain ⟨f, -, hf⟩ := List.mem_filterMap.1 h
  obtain ⟨cause, -, rfl⟩ := Option.map_eq_some_iff.1 hf
  show Diagnostic.warning .configure
    ("failed to read '" ++ (f.path dir name).text ++ "'" ++ ", using the default instead") = _
  rw [String.append_assoc]
  rfl

/-- **Side files are read, and fail, independently.** For every store, directory and module: each of
the seven rules is what the text of its own side file gives, or its default if there is no such text,
whatever the other files are. Exactly one error is told of each file that is there and cannot be
read, in reading order, with the path of that file and why it cannot be read; and each is passed on
as one warning, in that order. Whatever fails, the names that the whitelist gives are forgotten, and
no others; without an error there, these are all names of its text. And all names, endings, keys and
values that are loaded are not empty and hold no line feed. -/
theorem side_files_independent (known : Registry) :
    let loaded := load store dir name
    let resolved := Context.resolve store dir name known
    (∀ f : SideFile, f.ruleOf loaded.1 = f.rule (f.state store dir name)) ∧
    (loaded.2 = SideFile.all.filterMap fun f =>
        (f.state store dir name).cause?.map fun cause => ⟨.read, f.path dir name, cause⟩) ∧
    (loaded.2.map (·.path)).Nodup ∧
    (resolved.2 = loaded.2.map fun e => .warning .configure
        ("failed to read '" ++ e.path.text ++ "', using the default instead")) ∧
    resolved.1.filters = loaded.1 ∧
    (∀ part n, resolved.1.registry.knownIn? part n =
        if n ∈ loaded.1.whitelist then none else known.knownIn? part n) ∧
    (∀ text, SideFile.whitelist.state store dir name = .readable text →
      ∀ n ∈ Text.nonEmptyLines text, resolved.1.registry.isKnown n = false) ∧
    ∀ f : SideFile, ∀ s ∈ f.listed (f.ruleOf loaded.1), s ≠ "" ∧ Text.OneLine s := by
  intro loaded resolved
  have hevicted : ∀ part n, resolved.1.registry.knownIn? part n =
      if n ∈ loaded.1.whitelist then none else known.knownIn? part n :=
    fun part n => Registry.knownIn?_evictAll known part loaded.1.whitelist n
  refine ⟨fun f => f.ruleOf_load store dir name, SideFile.errors_load store dir name,
    SideFile.nodup_paths_errors store dir name, ?_, rfl, hevicted, ?_, ?_⟩
  · have hwarned : resolved.2 = loaded.2.map FileError.sideFileWarning := rfl
    rw [hwarned]
    exact List.map_congr_left fun e he => sideFileWarning_eq store dir name he
  · intro text htext n hn
    have hwhitelist : loaded.1.whitelist = parseNames text := by
      have hrule := SideFile.whitelist.ruleOf_load store dir name
      rw [htext] at hrule
      exact hrule
    have hlisted : n ∈ loaded.1.whitelist := by
      rw [hwhitelist]
      exact List.mem_eraseDups.2 hn
    apply Bool.eq_false_iff.2
    intro hknown
    obtain ⟨part, hpart⟩ := (Registry.isKnown_iff _).1 hknown
    rw [hevicted, if_pos hlisted] at hpart
    exact absurd hpart (by decide)
  · intro f s hs
    rw [f.ruleOf_load] at hs
    exact f.listed_rule _ s hs

/-- A store in which a directory stands in the place of a blacklist, beside a whitelist. -/
def deskStore : FileStore :=
  ⟨⟨[(["T.blacklist"], .directory), (["T.whitelist"], .file "Nib".toUTF8)]⟩, []⟩

/-- What is known of a pen's nib. -/
def nibRegistry : Registry := ⟨⟨[("Nib", ⟨"Nib", .union, none⟩)]⟩, .empty, .empty⟩

/-- The blacklist is told of, and the whitelist forgets the nib all the same. -/
theorem side_files_independent_desk :
    SideFile.whitelist.state deskStore ⟨""⟩ "T" = .readable "Nib" ∧
      "Nib" ∈ Text.nonEmptyLines "Nib" ∧ nibRegistry.isKnown "Nib" = true ∧
      (load deskStore ⟨""⟩ "T").2 = [⟨.read, ⟨"T.blacklist"⟩, .refused⟩] ∧
      (load deskStore ⟨""⟩ "T").1.blacklist = [] ∧
      (Context.resolve deskStore ⟨""⟩ "T" nibRegistry).1.registry.isKnown "Nib" = false ∧
      ∀ s ∈ (load deskStore ⟨""⟩ "T").1.whitelist, s ≠ "" ∧ Text.OneLine s := by
  have hwhitelist : SideFile.whitelist.state deskStore ⟨""⟩ "T" = .readable "Nib" := by
    decide +kernel
  have hblacklist : SideFile.blacklist.state deskStore ⟨""⟩ "T" = .unreadable .refused := by
    decide +kernel
  have hnib : "Nib" ∈ Text.nonEmptyLines "Nib" := by decide +kernel
  obtain ⟨hrules, herrors, -, -, -, -, hevicted, hlisted⟩ :=
    side_files_independent deskStore ⟨""⟩ "T" nibRegistry
  have herror : (load deskStore ⟨""⟩ "T").2 = [⟨.read, ⟨"T.blacklist"⟩, .refused⟩] :=
    herrors.trans (by decide +kernel)
  have hempty : (load deskStore ⟨""⟩ "T").1.blacklist = [] := by
    have hrule := hrules .blacklist
    rw [hblacklist] at hrule
    exact hrule
  exact ⟨hwhitelist, hnib, by decide +kernel, herror, hempty, hevicted _ hwhitelist _ hnib,
    hlisted .whitelist⟩

end Filters

end SwiftBindings
