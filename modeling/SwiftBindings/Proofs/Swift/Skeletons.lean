import SwiftBindings.Proofs.Filters.Namespaces
import SwiftBindings.Proofs.Run.Contribution
import SwiftBindings.Proofs.Swift.Lines
import SwiftBindings.Swift.Skeleton

/-!
# The lines of skeletons

Every line of a skeleton is written around a word of its own, so none of them is empty whatever the
declaration holds. A line feed can only come from a string of the declaration or from a renamed
namespace; the value of a constant that is written as a string literal gives none.

* `skeletons`: the synthesizer that writes skeletons.
* `skeleton_ne_empty`: **every declaration has a skeleton.**
* `Declaration.plainStrings`: the strings of a declaration that are written as they are.
* `notMem_pieces_skeleton`: **no line of a skeleton is empty** if these are of one line each.
-/

namespace SwiftBindings

open Text (OneLine Visible oneLine_append visible_append oneLine_camel)

/-! ## Strings -/

/-- The strings of a signature. -/
def Signature.strings (s : Signature) : List String :=
  s.params.flatMap (fun p => [p.name, p.typeName]) ++ s.returns?.toList

/-- The strings of fields. -/
def Field.stringsOf (fields : List Field) : List String :=
  fields.flatMap fun field => [field.name, field.typeName]

/-- The strings of a kind, but for the value of a constant that is written as a string literal. -/
def Kind.plainStrings (ctx : Context) (name : String) : Kind → List String
  | .alias target => [target]
  | .callback s | .function s => s.strings
  | .constant type value =>
    if ctx.filters.isVerbatim name = false ∧ Swift.typeName ctx type = "String" then [type]
    else [type, value]
  | .enumeration members | .bitfield members => members.map (·.name)
  | .union fields | .record fields => Field.stringsOf fields
  | .interface prerequisites => prerequisites
  | .class_ parent? fields => parent?.toList ++ Field.stringsOf fields

/-- The strings of a declaration, but for the value of a constant that is written as a string
literal. -/
def Declaration.plainStrings (ctx : Context) (d : Declaration) : List String :=
  d.name :: (d.displayName?.toList ++ d.cType?.toList ++ d.kind.plainStrings ctx d.name)

namespace Swift

variable {ctx : Context} {d : Declaration}

/-- Skeletons as the code of declarations. -/
def skeletons : Synthesizer := fun ctx d => some (skeleton ctx d)

/-- Skeletons can always be written. -/
theorem not_fails_skeletons (ctx : Context) (m : Module) (all : Bool) (c : Category) :
    ¬ Synthesizer.Fails skeletons ctx m all c := by
  rintro ⟨d, -, h⟩
  exact absurd h (by simp [skeletons])

/-! ## Lines that are not empty -/

theorem visible_indented (level : Nat) (text : String) (h : Visible text) :
    Visible (indented level text) := visible_append.2 (.inr h)

theorem visible_constantLine (ctx : Context) (name type value : String) :
    Visible (constantLine ctx name type value) := by
  unfold constantLine
  dsimp only
  split
  · simp +decide
  · split <;> simp +decide

theorem visible_properties (ctx : Context) (fields : List Field) :
    Every Visible [.eachLine (propertyLines ctx fields)] := by
  refine ⟨Step.every_eachLine.2 (List.forall_mem_map.2 fun field _ => ?_), trivial⟩
  simp +decide

theorem visible_functionHeader (ctx : Context) (d : Declaration) (s : Signature) :
    Visible (functionHeader ctx d s) := by
  unfold functionHeader
  dsimp only
  split <;> simp +decide

/-- Every line for the kind of a declaration has a word of its own. -/
theorem visible_kindSteps (ctx : Context) (d : Declaration) : Every Visible (kindSteps ctx d) := by
  have hproperties := visible_properties ctx
  unfold kindSteps
  cases d.kind with
  | constant type value => exact ⟨visible_constantLine ctx d.name type value, trivial⟩
  | function s => simp +decide [visible_functionHeader]
  | union fields | record fields =>
    exact ⟨⟨by simp +decide, hproperties fields, by decide⟩, trivial⟩
  | class_ parent? fields =>
    cases parent? with
    | none => exact ⟨⟨by simp +decide, hproperties fields, by decide⟩, trivial⟩
    | some parent => exact ⟨⟨by simp +decide, hproperties fields, by decide⟩, trivial⟩
  | interface prerequisites => cases prerequisites <;> simp +decide
  -- all that is left are lines that open with a literal
  | _ => simp +decide

/-- **Every line of a skeleton has a word of its own,** whatever the strings of the declaration. -/
theorem visible_skeletonSteps (ctx : Context) (d : Declaration) :
    Every Visible (skeletonSteps ctx d) :=
  ⟨fun _ => ⟨visible_append.2 (.inl (by decide)), trivial⟩, visible_kindSteps ctx d⟩

/-- A skeleton has a line at least. -/
theorem linesOf_skeletonSteps_ne_nil (ctx : Context) (d : Declaration) :
    linesOf 0 (skeletonSteps ctx d) ≠ [] := by
  have hkind : linesOf 0 (kindSteps ctx d) ≠ [] := by
    unfold kindSteps
    split <;> simp [linesOf, Step.lines]
  exact List.append_ne_nil_of_right_ne_nil _ hkind

/-- **Every declaration has a skeleton.** -/
theorem skeleton_ne_empty (ctx : Context) (d : Declaration) : skeleton ctx d ≠ "" := by
  obtain ⟨line, rest, hlines⟩ := List.exists_cons_of_ne_nil (linesOf_skeletonSteps_ne_nil ctx d)
  have hline : line ∈ linesOf 0 (skeletonSteps ctx d) := by
    rw [hlines]
    exact List.mem_cons_self
  exact render_ne_empty hline ((visible_skeletonSteps ctx d).linesOf visible_indented 0 line hline)

/-! ## Lines without line feeds -/

/-- A string literal is of one line whatever it holds. -/
theorem oneLine_stringLiteral (value : String) : OneLine (stringLiteral value) := by
  have hchar : ∀ c, '\n' ∉ literalChar c := by
    intro c
    unfold literalChar
    split
    · decide
    split
    · decide
    split
    · decide
    split
    · decide
    · rename_i hc _
      exact fun hm => hc (List.mem_singleton.1 hm).symm
  unfold stringLiteral
  rw [Text.oneLine_ofList, List.cons_append, List.mem_cons, List.mem_append, List.mem_flatMap]
  rintro (h | ⟨c, -, h⟩ | h)
  · exact absurd h (by decide)
  · exact hchar c h
  · exact absurd h (by decide)

theorem oneLine_fundamental? {name swift : String} (h : fundamental? name = some swift) :
    OneLine swift := by
  unfold fundamental? at h
  split at h <;> first | (rw [← Option.some.inj h]; decide) | simp at h

section InLine

variable (hctx : ctx.filters.RenamesInLine)
include hctx

theorem oneLine_qualifiedName {name : String} (h : OneLine name) :
    OneLine (qualifiedName ctx name) := by
  unfold qualifiedName
  split
  · exact h
  · rename_i namespaceName rest hsplit
    unfold splitNamespace? at hsplit
    dsimp only at hsplit
    split at hsplit
    · -- both parts of the name are made of its characters
      obtain ⟨rfl, rfl⟩ := Prod.mk.inj (Option.some.inj hsplit)
      have hrest : OneLine (String.ofList ((name.toList.dropWhile (· ≠ '.')).drop 1)) :=
        Text.oneLine_ofList.2 fun hm =>
          h ((List.dropWhile_sublist _).mem (List.mem_of_mem_drop hm))
      have hname : OneLine (String.ofList (name.toList.takeWhile (· ≠ '.'))) :=
        Text.oneLine_ofList.2 fun hm => h ((List.takeWhile_sublist _).mem hm)
      dsimp only
      split
      · exact hrest
      · exact oneLine_append.2 ⟨oneLine_append.2 ⟨hctx _ hname, by decide⟩, hrest⟩
    · simp at hsplit

theorem oneLine_typeName {name : String} (h : OneLine name) : OneLine (typeName ctx name) := by
  unfold typeName
  split
  · rename_i swift hswift
    exact oneLine_fundamental? hswift
  · have hname := oneLine_qualifiedName hctx h
    split
    · exact oneLine_append.2 ⟨hname, by decide⟩
    · exact hname

theorem oneLine_returnType {s : Signature} (h : ∀ t ∈ s.strings, OneLine t) :
    OneLine (returnType ctx s) := by
  unfold returnType
  split
  · rename_i name hname
    refine oneLine_typeName hctx (h name ?_)
    simp [Signature.strings, hname]
  · decide

theorem oneLine_constantLine {name type value : String} (hname : OneLine name)
    (h : ∀ t ∈ Kind.plainStrings ctx name (.constant type value), OneLine t) :
    OneLine (constantLine ctx name type value) := by
  rw [Kind.plainStrings] at h
  unfold constantLine
  dsimp only
  split
  · rename_i hverbatim
    rw [if_neg (by simp [hverbatim])] at h
    have hvalue : OneLine value := h value (by simp)
    simp +decide [hname, hvalue]
  · rename_i hverbatim
    split
    · simp +decide [hname, oneLine_stringLiteral]
    · rename_i hswift
      rw [if_neg (by simp [hswift])] at h
      have htype : OneLine (typeName ctx type) := oneLine_typeName hctx (h type (by simp))
      have hvalue : OneLine value := h value (by simp)
      simp +decide [hname, htype, hvalue]

theorem oneLine_properties {fields : List Field} (h : ∀ t ∈ Field.stringsOf fields, OneLine t) :
    Every OneLine [.eachLine (propertyLines ctx fields)] := by
  refine ⟨Step.every_eachLine.2 (List.forall_mem_map.2 fun field hfield => ?_), trivial⟩
  have hmem := (List.mem_filter.1 hfield).1
  have hname : OneLine field.name := h _ (List.mem_flatMap.2 ⟨field, hmem, by simp⟩)
  have htype : OneLine field.typeName := h _ (List.mem_flatMap.2 ⟨field, hmem, by simp⟩)
  simp +decide [oneLine_camel hname, oneLine_typeName hctx htype]

theorem oneLine_parameter {s : Signature} (h : ∀ t ∈ s.strings, OneLine t) {p : Param}
    (hp : p ∈ s.params) :
    OneLine (parameter ctx p) ∧ OneLine (typeName ctx p.typeName) := by
  have hstrings : ∀ t ∈ [p.name, p.typeName], OneLine t := fun t ht =>
    h t (List.mem_append_left _ (List.mem_flatMap.2 ⟨p, hp, ht⟩))
  have hname := oneLine_camel (hstrings p.name (by simp))
  have htype := oneLine_typeName hctx (hstrings p.typeName (by simp))
  refine ⟨?_, htype⟩
  unfold parameter
  split <;> simp +decide [hname, htype]

theorem oneLine_functionHeader {s : Signature} (hname : OneLine d.displayName)
    (h : ∀ t ∈ s.strings, OneLine t) : OneLine (functionHeader ctx d s) := by
  have hparams : OneLine (", ".intercalate (s.params.map (parameter ctx))) :=
    Text.oneLine_intercalate (by decide)
      (List.forall_mem_map.2 fun p hp => (oneLine_parameter hctx h hp).1)
  have hmodifiers :
      OneLine (if ctx.filters.isOverridden d.name then "public override" else "public") := by
    split <;> decide
  unfold functionHeader
  dsimp only
  split <;> simp +decide [hmodifiers, hparams, oneLine_camel hname, oneLine_returnType hctx h]

/-- Every line for the kind of a declaration is of one line if its strings are. -/
theorem oneLine_kindSteps (hname : OneLine d.name) (hdisplay : OneLine d.displayName)
    (h : ∀ t ∈ d.kind.plainStrings ctx d.name, OneLine t) : Every OneLine (kindSteps ctx d) := by
  unfold kindSteps
  match d.kind, h with
  | .alias target, h =>
    have htarget := oneLine_typeName hctx (h target (by simp [Kind.plainStrings]))
    simp +decide [hdisplay, htarget]
  | .callback s, h =>
    have hparams : OneLine (", ".intercalate (s.params.map fun p => typeName ctx p.typeName)) :=
      Text.oneLine_intercalate (by decide)
        (List.forall_mem_map.2 fun p hp => (oneLine_parameter hctx h hp).2)
    simp +decide [hdisplay, hparams, oneLine_returnType hctx h]
  | .constant type value, h => exact ⟨oneLine_constantLine hctx hname h, trivial⟩
  | .enumeration members, h | .bitfield members, h =>
    have hmembers : ∀ m ∈ members, OneLine (Text.camel m.name) := fun m hm =>
      oneLine_camel (h m.name (List.mem_map_of_mem hm))
    simpa +decide [hdisplay] using hmembers
  | .union fields, h | .record fields, h | .class_ none fields, h =>
    exact ⟨⟨by simp +decide [hdisplay], oneLine_properties hctx h, by decide⟩, trivial⟩
  | .interface [], h => simp +decide [hdisplay]
  | .interface (name :: more), h =>
    have hnames : OneLine (", ".intercalate ((name :: more).map (qualifiedName ctx))) :=
      Text.oneLine_intercalate (by decide)
        (List.forall_mem_map.2 fun n hn => oneLine_qualifiedName hctx (h n hn))
    simp +decide only [Every, Step.Every, oneLine_append, hdisplay, hnames, and_self]
  | .class_ (some parent) fields, h =>
    have hparent := oneLine_qualifiedName hctx (h parent (by simp [Kind.plainStrings]))
    have hfields := oneLine_properties hctx fun t ht => h t (List.mem_append_right _ ht)
    exact ⟨⟨by simp +decide [hdisplay, hparent], hfields, by decide⟩, trivial⟩
  | .function s, h =>
    simp +decide [oneLine_functionHeader hctx hdisplay h]

/-- Every line of a skeleton is of one line if the strings of the declaration are. -/
theorem oneLine_skeletonSteps (h : ∀ t ∈ d.plainStrings ctx, OneLine t) :
    Every OneLine (skeletonSteps ctx d) := by
  have hname : OneLine d.name := h _ List.mem_cons_self
  have hdisplay : OneLine d.displayName := by
    unfold Declaration.displayName
    cases hd : d.displayName? with
    | none => exact hname
    | some display => exact h display (by simp [Declaration.plainStrings, hd])
  have hctype : OneLine (d.cType?.getD "") := by
    cases hc : d.cType? with
    | none => decide
    | some cType => exact h cType (by simp [Declaration.plainStrings, hc])
  refine ⟨fun _ => ?_, oneLine_kindSteps hctx hname hdisplay ?_⟩
  · simp +decide [hctype]
  · exact fun t ht => h t (List.mem_cons_of_mem _ (List.mem_append_right _ ht))

/-- **No line of a skeleton is empty** if the strings of the declaration are of one line each. -/
theorem notMem_pieces_skeleton (h : ∀ t ∈ d.plainStrings ctx, OneLine t) :
    [] ∉ Text.pieces '\n' (skeleton ctx d).toList := by
  have hvisible := (visible_skeletonSteps ctx d).linesOf visible_indented 0
  have honeLine := (oneLine_skeletonSteps hctx h).linesOf oneLine_indented 0
  -- so the lines of the text are the lines that were written
  have hpieces := pieces_render (linesOf_skeletonSteps_ne_nil ctx d) fun line hline =>
    ⟨(hvisible line hline).ne_empty, honeLine line hline⟩
  rw [skeleton, hpieces, List.mem_map]
  rintro ⟨line, hline, he⟩
  exact (hvisible line hline).ne_empty (String.toList_eq_nil_iff.1 he)

end InLine

end Swift

end SwiftBindings
