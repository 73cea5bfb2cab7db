import SwiftBindings.Proofs.Manifest.Occurrences
import SwiftBindings.Proofs.Toml.Accounts

/-!
# What the error of a manifest points at

A manifest that is read but must not be accepted is reported with a label on the first occurrence of
the faulty setting's name in its text. That may be the key of the setting, or a comment, a value or
another key before it that holds the name.

* `Toml.Key.marks_of_isPlain`: the place of a key without quotes.
* `ModuleConfig.Faulty`, `Manifest.fault?_eq_some`: the setting that an error is about.
* `ModuleConfig.standing_of_faulty`: a faulty setting was set.
* `Manifest.label_on_key_iff`: **the label of an error is on the key of the faulty setting exactly
  if the name does not occur before the key.**
-/

namespace SwiftBindings

/-! ## Keys -/

namespace Toml.Key

/-- The part of a document that the last part of a key takes up, if it is written as it is. -/
def span (text : String) (key : Key) : Span :=
  ⟨text.utf8ByteSize - (String.ofList key.text).utf8ByteSize,
    (key.path.getLast?.getD "").utf8ByteSize⟩

/-- The last part of a key without quotes is written as it is. -/
theorem toList_prefix_of_isPlain {key : Key} {name : String} {rest : List Char}
    (hplain : key.isPlain = true) (h : readKeyPart key.text = some (name, rest)) :
    name.toList <+: key.text := by
  unfold isPlain at hplain
  unfold readKeyPart at h
  split at h
  · rename_i htext
    rw [htext] at hplain
    cases hplain
  · rename_i htext
    rw [htext] at hplain
    cases hplain
  · dsimp only at h
    split at h
    · cases h
    · cases h
      rw [String.toList_ofList]
      exact List.takeWhile_prefix isBare

/-- **The place of a key without quotes** holds the last name of its path. -/
theorem marks_of_isPlain {key : Key} {text word : String} (hkey : key ∈ keys text)
    (hword : key.path.getLast? = some word) (hplain : key.isPlain = true) :
    (key.span text).Marks text word := by
  obtain ⟨⟨front, hfront⟩, name, rest, hread, hlast⟩ := standsIn_of_mem_keys hkey
  have hname : name = word := Option.some.inj (hlast.symm.trans hword)
  obtain ⟨back, hback⟩ := toList_prefix_of_isPlain hplain hread
  have htext : text = String.ofList front ++ String.ofList key.text := by
    rw [← String.ofList_append, hfront, String.ofList_toList]
  refine Span.marks_iff.2 ⟨front, back, ?_, ?_⟩
  · rw [← hfront, ← hback, hname, List.append_assoc]
  · unfold span
    rw [hword, htext, String.utf8ByteSize_append, Nat.add_sub_cancel]
    rfl

end Toml.Key

/-! ## Faults -/

namespace ModuleConfig

open Toml (Entries Value)

/-- What is wrong with settings: the name of the faulty one and what is told of it. -/
inductive Faulty (c : ModuleConfig) : String → String → Prop where
  | emptyName (hname : c.pkgConfig? = some "") :
    Faulty c "pkg-config" "pkg-config name must not be empty"
  | emptyDirectory (hdir : c.outputDir? = some ⟨""⟩) :
    Faulty c "output-dir" "output directory must not be empty"
  | ownPrerequisite {ir p : Path} (hir : c.ir? = some ir) (hp : p ∈ c.prerequisites)
    (hsame : p.same ir = true) :
    Faulty c "prerequisites" ("'" ++ ir.text ++ "' cannot be its own prerequisite")

variable {settings : Entries} {c : ModuleConfig} {word reason : String}

theorem eq_string_of_text? {v : Value} {s : String} (h : text? v = some s) : v = .string s := by
  unfold text? at h
  split at h
  · cases h
    rfl
  · cases h

theorem eq_string_of_path? {v : Value} {p : Path} (h : path? v = some p) : v = .string p.text := by
  unfold path? at h
  split at h
  · cases h
    rfl
  · cases h

theorem eq_some_of_optional? {α : Type} {read? : Value → Option α} {v? : Option Value} {a : α}
    (h : optional? read? v? = some (some a)) : ∃ v, v? = some v ∧ read? v = some a := by
  cases v? with
  | none => cases h
  | some v =>
    obtain ⟨b, hb, hab⟩ := Option.map_eq_some_iff.1 h
    exact ⟨v, rfl, hb.trans hab⟩

theorem exists_path_of_mem {items : List Value} {paths : List Path}
    (h : items.mapM path? = some paths) {v : Value} (hv : v ∈ items) :
    ∃ p, path? v = some p := by
  induction items generalizing paths with
  | nil => cases hv
  | cons w rest ih =>
    simp only [List.mapM_cons, Option.bind_eq_bind, Option.bind_eq_some_iff] at h
    obtain ⟨p, hp, more, hmore, -⟩ := h
    rcases List.mem_cons.1 hv with rfl | hv
    · exact ⟨p, hp⟩
    · exact ih hmore hv

/-- A string is a value that is set. -/
theorem standing_string (s : String) : (Value.string s).standing [] = .set := rfl

/-- A list of paths is set, since it is no array of tables. -/
theorem standing_of_paths? {v : Value} {paths : List Path} (h : paths? v = some paths) :
    v.standing [] = .set := by
  unfold paths? at h
  split at h
  · rename_i ofTables items
    have hleaf : (Value.array ofTables items).isArrayOfTables = false := by
      cases ofTables with
      | false => rfl
      | true =>
        cases hlast : items.getLast? with
        | none => simp [Value.isArrayOfTables, hlast]
        | some last =>
          obtain ⟨p, hp⟩ := exists_path_of_mem h (List.mem_of_getLast? hlast)
          rw [eq_string_of_path? hp] at hlast
          simp [Value.isArrayOfTables, hlast]
    simp [Value.standing, Value.leafStanding, hleaf]
  · cases h

/-- **A faulty setting was set.** -/
theorem standing_of_faulty (h : ofEntries? settings = some c) (hfaulty : c.Faulty word reason) :
    settings.standing [word] = .set := by
  have hset : ∀ {v : Value}, settings.find? word = some v → v.standing [] = .set →
      settings.standing [word] = .set := by
    intro v hv hstanding
    rw [Entries.standing_cons_of_some hv, hstanding]
  unfold ofEntries? at h
  obtain ⟨-, h⟩ := Option.ite_none_right_eq_some.1 h
  simp only [Option.bind_eq_bind, Option.bind_eq_some_iff] at h
  obtain ⟨ir, hir, pkgConfig, hpkgConfig, outputDir, houtputDir, alphaNames, -, prerequisites,
    hprerequisites, hc⟩ := h
  cases hc
  cases hfaulty with
  | emptyName hname =>
    obtain ⟨v, hv, hread⟩ := eq_some_of_optional? (hpkgConfig.trans (congrArg some hname))
    refine hset hv ?_
    rw [eq_string_of_text? hread]
    exact standing_string ""
  | emptyDirectory hdir =>
    obtain ⟨v, hv, hread⟩ := eq_some_of_optional? (houtputDir.trans (congrArg some hdir))
    refine hset hv ?_
    rw [eq_string_of_path? hread]
    exact standing_string ""
  | ownPrerequisite _ hp _ =>
    cases hv : settings.find? "prerequisites" with
    | none =>
      rw [hv] at hprerequisites
      cases hprerequisites
      cases hp
    | some v =>
      rw [hv] at hprerequisites
      exact hset hv (standing_of_paths? hprerequisites)

end ModuleConfig

namespace Manifest

variable {text word reason : String} {span? : Option Span} {entries settings : Toml.Entries}
  {origin : Toml.Origin} {m : Manifest}

/-- **The setting that an error is about** gives the word that is looked for. -/
theorem fault?_eq_some {e : ManifestError} (h : fault? text m = some e) :
    ∃ word reason, m.module.Faulty word reason ∧ e = .invalidAt text word reason := by
  unfold fault? at h
  split at h
  · rename_i hname
    cases h
    exact ⟨_, _, .emptyName hname, rfl⟩
  split at h
  · rename_i hdir
    cases h
    obtain ⟨⟨dir⟩, houtput, hempty⟩ := Option.map_eq_some_iff.1 hdir
    cases hempty
    exact ⟨_, _, .emptyDirectory houtput, rfl⟩
  split at h
  · cases h
  · rename_i ir hir
    split at h
    · rename_i hany
      cases h
      obtain ⟨p, hp, hsame⟩ := List.any_eq_true.1 hany
      exact ⟨_, _, .ownPrerequisite hir hp hsame, rfl⟩
    · cases h

/-- The settings of a text whose module is written as a table. -/
def settings? (text : String) : Option Toml.Entries :=
  (Toml.parse text).bind fun entries =>
    match entries.find? "module" with
    | some (.table _ settings) => some settings
    | _ => none

theorem settings?_eq_some (h : settings? text = some settings) :
    ∃ entries origin, Toml.parse text = some entries ∧
      entries.find? "module" = some (.table origin settings) := by
  obtain ⟨entries, hentries, h⟩ := Option.bind_eq_some_iff.1 h
  split at h
  · rename_i origin _ hmodule
    cases h
    exact ⟨entries, origin, hentries, hmodule⟩
  · cases h

/-- A manifest that is invalid was read, and has a fault. -/
theorem exists_fault_of_parse (h : parse text = .error (.invalid reason span?)) :
    ∃ m, (Toml.parse text).bind ofEntries? = some m ∧
      fault? text m = some (.invalid reason span?) := by
  unfold parse at h
  split at h
  · cases h
  · rename_i m hm
    split at h
    · rename_i e hfault
      cases h
      exact ⟨m, hm, hfault⟩
    · cases h

/-- The settings of a manifest whose module is a table. -/
theorem ofEntries?_of_table (h : ofEntries? entries = some m)
    (hmodule : entries.find? "module" = some (.table origin settings)) :
    ModuleConfig.ofEntries? settings = some m.module := by
  unfold ofEntries? at h
  obtain ⟨-, h⟩ := Option.ite_none_right_eq_some.1 h
  rw [hmodule] at h
  obtain ⟨c, hc, hm⟩ := Option.map_eq_some_iff.1 h
  cases hm
  exact hc

/-- **Where the label of an error is.** For every text that is read as a manifest whose module is a
table, with keys without quotes, and is refused for what it says, there is one faulty setting that
the error is about, with one key in the text, and there is a label. The label is a part of the text
from a character to a character and is the setting's name, as the key is. It is the first part that
is, so it is on the key exactly if the name does not occur before the key. -/
theorem label_on_key_iff (hparse : parse text = .error (.invalid reason span?))
    (hsettings : settings? text = some settings)
    (hplain : ∀ key ∈ Toml.keys text, key.path.head? = some "module" → key.isPlain = true) :
    ∃ (config : ModuleConfig) (word : String) (key : Toml.Key) (label : Span),
      ModuleConfig.ofEntries? settings = some config ∧ config.Faulty word reason ∧
      (Toml.keys text).filter (·.path == ["module", word]) = [key] ∧
      (key.span text).Marks text word ∧
      span? = some label ∧ label.Marks text word ∧
      (∀ other : Span, other.Marks text word → label.offset ≤ other.offset) ∧
      (label = key.span text ↔
        ¬ ∃ other : Span, other.Marks text word ∧ other.offset < (key.span text).offset) := by
  obtain ⟨entries, origin, hentries, hmodule⟩ := settings?_eq_some hsettings
  obtain ⟨m, hm, hfault⟩ := exists_fault_of_parse hparse
  rw [hentries, Option.bind_some] at hm
  obtain ⟨word, reason', hfaulty, he⟩ := fault?_eq_some hfault
  have hreason : reason = reason' ∧ span? = Span.find? text word := by
    cases he
    exact ⟨rfl, rfl⟩
  obtain ⟨rfl, hfind⟩ := hreason
  have hconfig := ofEntries?_of_table hm hmodule
  -- the faulty setting was set, so it has a key
  have hset : entries.standing ["module", word] = .set := by
    rw [Toml.Entries.standing_cons_of_some hmodule]
    exact ModuleConfig.standing_of_faulty hconfig hfaulty
  obtain ⟨key, hkey⟩ := Toml.exists_key_of_set hentries hset
  obtain ⟨hmem, hpath⟩ := Toml.mem_keys_of_filter_eq hkey
  have hkeyPlain : key.isPlain = true := hplain key hmem (by rw [hpath]; rfl)
  have hmarks : (key.span text).Marks text word :=
    Toml.Key.marks_of_isPlain hmem (by rw [hpath]; rfl) hkeyPlain
  -- the key is an occurrence of the name, so there is a first one
  obtain ⟨label, hlabel⟩ := Span.exists_find?_of_marks hmarks
  obtain ⟨hlabelMarks, hfirst⟩ := Span.find?_eq_some_iff.1 hlabel
  refine ⟨m.module, word, key, label, hconfig, hfaulty, hkey, hmarks, hfind.trans hlabel,
    hlabelMarks, hfirst, ?_⟩
  constructor
  · rintro hon ⟨other, hother, hbefore⟩
    have hle := hfirst other hother
    rw [hon] at hle
    omega
  · intro hnone
    have hle : (key.span text).offset ≤ label.offset :=
      Nat.le_of_not_lt fun hbefore => hnone ⟨label, hlabelMarks, hbefore⟩
    exact hlabelMarks.eq_of_offset hmarks (Nat.le_antisymm (hfirst _ hmarks) hle)

/-- A manifest that names a setting in a comment before it sets it. -/
def commentedManifest : String := "[module]\n# no pkg-config name\npkg-config = \"\"\n"

/-- The manifest is refused with a label in its comment, sixteen bytes before the key. -/
theorem label_on_key_iff_commented :
    parse commentedManifest =
        .error (.invalid "pkg-config name must not be empty" (some ⟨14, 10⟩)) ∧
      ∃ key ∈ Toml.keys commentedManifest, key.path = ["module", "pkg-config"] ∧
        key.isPlain = true ∧ key.span commentedManifest = ⟨30, 10⟩ ∧
        ∃ other : Span, other.Marks commentedManifest "pkg-config" ∧ other.offset < 30 := by
  have hparse : parse commentedManifest =
      .error (.invalid "pkg-config name must not be empty" (some ⟨14, 10⟩)) := by
    decide +kernel
  obtain ⟨settings, hsettings⟩ : ∃ settings, settings? commentedManifest = some settings :=
    Option.isSome_iff_exists.1 (by decide +kernel)
  have hkeys : Toml.keys commentedManifest =
      [⟨["module", "pkg-config"], "pkg-config = \"\"\n".toList⟩] := by
    decide +kernel
  have hplain : ∀ key ∈ Toml.keys commentedManifest, key.path.head? = some "module" →
      key.isPlain = true := by
    decide +kernel
  obtain ⟨_, word, key, label, -, -, hkey, -, hlabel, -, -, hiff⟩ :=
    label_on_key_iff hparse hsettings hplain
  obtain ⟨hmem, hword⟩ := Toml.mem_keys_of_filter_eq hkey
  obtain ⟨hpath, hspan⟩ : key.path = ["module", "pkg-config"] ∧
      key.span commentedManifest = ⟨30, 10⟩ := by
    rw [hkeys] at hmem
    rw [List.mem_singleton.1 hmem]
    exact ⟨rfl, by decide +kernel⟩
  have hname : word = "pkg-config" := by
    rw [hpath] at hword
    exact (List.cons.inj (List.cons.inj hword).2).1.symm
  refine ⟨hparse, key, hmem, hpath, hplain key hmem (by rw [hpath]; rfl), hspan, ?_⟩
  rw [hname, hspan] at hiff
  by_contra hnone
  have hon : label = ⟨30, 10⟩ := hiff.2 hnone
  rw [← Option.some.inj hlabel] at hon
  exact absurd hon (by decide)

end Manifest

end SwiftBindings
