import SwiftBindings.Proofs.Filters.NameLists
import SwiftBindings.Proofs.Filters.SideFiles
import SwiftBindings.Proofs.Run.Knowledge
import SwiftBindings.Proofs.Run.Unified
import SwiftBindings.Proofs.Swift.Lines

/-!
# The report of names beside the code

If the code of a run is one text, the report of its names may end up in the same stream. It is a
comment then: each of its lines starts with the mark of one, since no name holds a line feed, and
what follows it starts a line of its own.

* `SideFile.State.names`: the names that a side file lists, at their first mention.
* `NameReport.lines_of_commented`: the lines of a comment, without and with the mark.
* `NameReport.pieces_append`: **a report in front of a text can be cut off again.**
* `verbose_report_lines`: **the report of a verbose run is a comment exactly if there is code in one
  text, and the names can be read back from it.**
-/

namespace SwiftBindings

/-! ## Names of side files -/

namespace SideFile

/-- The names that a side file lists, each where it is mentioned first. -/
def State.names (st : State) : List String :=
  match st.text? with
  | some text => firstMentions id (Text.nonEmptyLines text)
  | none => []

/-- A list of names is read by its first mentions. -/
theorem State.rule_parseNames (st : State) :
    Filters.rule Filters.parseNames [] st.text? = st.names := by
  unfold names
  cases st.text? with
  | none => rfl
  | some text => exact Filters.parseNames_eq text

theorem State.nodup_names (st : State) : st.names.Nodup := by
  rw [← rule_parseNames]
  exact Filters.nodup_rule_parseNames _

theorem State.oneLine_names (st : State) : ∀ n ∈ st.names, Text.OneLine n := by
  unfold names
  cases st.text? with
  | none => exact List.forall_mem_nil _
  | some text =>
    intro n hn
    have hlisted : n ∈ Filters.parseNames text := by
      rw [Filters.parseNames_eq]
      exact hn
    exact (verbatim.listed_parse hlisted).2

variable (store : FileStore) (dir : Path) (name : String)

theorem verbatim_load :
    (Filters.load store dir name).1.verbatim = (verbatim.state store dir name).names := by
  rw [← State.rule_parseNames, ← text?_eq]
  rfl

theorem blacklist_load :
    (Filters.load store dir name).1.blacklist = (blacklist.state store dir name).names := by
  rw [← State.rule_parseNames, ← text?_eq]
  rfl

end SideFile

/-! ## Lines of a report -/

namespace NameReport

variable (r : NameReport)

/-- A report has two headings, and a line for each name. -/
theorem length_lines : r.lines.length = 2 + r.verbatim.length + r.blacklisted.length := by
  unfold lines sectionLines
  rw [List.length_append, List.length_cons, List.length_cons, List.length_map, List.length_map]
  omega

/-- What a heading says. -/
def heading (title : String) (names : List String) : String :=
  title ++ ": " ++ toString names.length

/-- What the lines of a report say. -/
def said : List String :=
  heading "Verbatim" r.verbatim :: r.verbatim ++
    heading "Blacklisted" r.blacklisted :: r.blacklisted

theorem sectionLines_commented (title : String) (names : List String) :
    sectionLines true title names = (heading title names :: names).map ("// " ++ ·) := by
  unfold sectionLines heading
  rw [List.map_cons, String.append_assoc, String.append_assoc, String.append_assoc]
  rfl

variable {r}

/-- **All lines of a comment have the mark,** headings and names alike. -/
theorem lines_of_commented (h : r.commented = true) : r.lines = r.said.map ("// " ++ ·) := by
  unfold lines said
  rw [h, sectionLines_commented, sectionLines_commented, List.map_append]

/-- A line of a comment, as it is cut out of the text. -/
theorem getElem?_lines (h : r.commented = true) {i : Nat} {s : String}
    (hs : r.said[i]? = some s) : (r.lines.map String.toList)[i]? = some ("// " ++ s).toList := by
  rw [lines_of_commented h, List.getElem?_map, List.getElem?_map, hs]
  rfl

theorem mark_prefix (h : r.commented = true) {line : String} (hline : line ∈ r.lines) :
    "// ".toList <+: line.toList := by
  rw [lines_of_commented h] at hline
  obtain ⟨s, -, rfl⟩ := List.mem_map.1 hline
  rw [String.toList_append]
  exact List.prefix_append _ _

theorem oneLine_heading {title : String} (h : Text.OneLine title) (names : List String) :
    Text.OneLine (heading title names) := by
  have hcolon : Text.OneLine (title ++ ": ") := Text.oneLine_append.2 ⟨h, by decide⟩
  exact Text.oneLine_append.2 ⟨hcolon, Text.oneLine_natRepr names.length⟩

/-- The lines of a comment are of one line each, if the names are. -/
theorem oneLine_lines (h : r.commented = true) (hverbatim : ∀ n ∈ r.verbatim, Text.OneLine n)
    (hblacklisted : ∀ n ∈ r.blacklisted, Text.OneLine n) :
    ∀ line ∈ r.lines, Text.OneLine line := by
  have hsaid : ∀ s ∈ r.said, Text.OneLine s := by
    intro s hs
    unfold said at hs
    rcases List.mem_append.1 hs with hs | hs
    · rcases List.mem_cons.1 hs with rfl | hs
      · exact oneLine_heading (by decide) _
      · exact hverbatim s hs
    · rcases List.mem_cons.1 hs with rfl | hs
      · exact oneLine_heading (by decide) _
      · exact hblacklisted s hs
  intro line hline
  rw [lines_of_commented h] at hline
  obtain ⟨s, hs, rfl⟩ := List.mem_map.1 hline
  exact Text.oneLine_append.2 ⟨by decide, hsaid s hs⟩

/-- What the lines of a comment say, once the mark is taken off. -/
theorem unmarked_lines (h : r.commented = true) :
    (r.lines.map String.toList).map (·.drop 3) = r.said.map String.toList := by
  have hunmarked : ∀ s : String, ("// " ++ s).toList.drop 3 = s.toList := by
    intro s
    rw [String.toList_append]
    rfl
  rw [lines_of_commented h, List.map_map, List.map_map]
  exact List.map_congr_left fun s _ => hunmarked s

theorem verbatim_said : (r.said.drop 1).take r.verbatim.length = r.verbatim := by
  unfold said
  rw [List.cons_append, List.drop_one, List.tail_cons, List.take_left]

/-- The second heading is behind the verbatim names. -/
theorem getElem?_said :
    r.said[1 + r.verbatim.length]? = some (heading "Blacklisted" r.blacklisted) := by
  unfold said
  rw [List.getElem?_append_right (by simp [Nat.add_comm])]
  simp [Nat.add_comm]

theorem blacklisted_said : r.said.drop (2 + r.verbatim.length) = r.blacklisted := by
  have hsaid : r.said =
      (heading "Verbatim" r.verbatim :: r.verbatim ++ [heading "Blacklisted" r.blacklisted]) ++
        r.blacklisted := by
    unfold said
    rw [List.append_assoc]
    rfl
  rw [hsaid]
  apply List.drop_left'
  rw [List.length_append, List.length_cons, List.length_singleton]
  omega

/-- **A report in front of a text can be cut off again:** its lines are its own. -/
theorem pieces_append (h : ∀ s ∈ r.lines, Text.OneLine s) (rest : String) :
    Text.pieces '\n' (r.text ++ rest).toList =
      r.lines.map String.toList ++ Text.pieces '\n' rest.toList :=
  Swift.pieces_ended_append h rest

end NameReport

/-! ## Verbose runs -/

section VerboseRuns

variable (synthesize : Synthesizer) (store : FileStore) (known : Registry) (m : Module)
  (o : RunOptions)

/-- A verbose run has a report, of the names of its side files. -/
theorem exists_report {o : RunOptions} (ho : o.verbose = true) (s : Schedule)
    (steps : List PostStep) :
    let result := ((Plan.make synthesize store known m o).carryOut store s).1.afterSteps steps
    ∃ r, result.report? = some r ∧
      r.verbatim = (SideFile.verbatim.state store o.configDir o.moduleName).names ∧
      r.blacklisted = (SideFile.blacklist.state store o.configDir o.moduleName).names ∧
      (r.commented = true ↔ result.unified ≠ "") := by
  intro result
  have hreport : result.report? = if o.verbose then
      some (.ofRun (Plan.make synthesize store known m o).context.filters result.unified)
      else none := by
    rw [RunResult.report?_afterSteps, RunResult.unified_afterSteps]
    rfl
  rw [if_pos ho, Plan.filters_make] at hreport
  exact ⟨_, hreport, SideFile.verbatim_load _ _ _, SideFile.blacklist_load _ _ _,
    decide_eq_true_iff⟩

/-- **The report of a verbose run goes with its code.** For every store, module and schedule, and
whatever steps are taken after the run: the report is a comment exactly if there is code in one text.
Cut at line feeds, a comment has nothing behind its last line, and in front of any text the lines of
the text are not touched. It has two headings and a line for each name, all of which start with the
mark of a comment. Without the mark, the lines behind the first heading are the verbatim names and
the lines behind the second are the blacklisted ones: the names of the side file, each once, in the
order of their first mention. -/
theorem verbose_report_lines (ho : o.verbose = true) (s : Schedule) (steps : List PostStep) :
    let result := ((Plan.make synthesize store known m o).carryOut store s).1.afterSteps steps
    let verbatim := (SideFile.verbatim.state store o.configDir o.moduleName).names
    let blacklisted := (SideFile.blacklist.state store o.configDir o.moduleName).names
    ∃ r, result.report? = some r ∧ (r.commented = true ↔ result.unified ≠ "") ∧
      (r.commented = true → ∃ lines : List (List Char),
        Text.pieces '\n' r.text.toList = lines ++ [[]] ∧
        (∀ rest : String, Text.pieces '\n' (r.text ++ rest).toList =
          lines ++ Text.pieces '\n' rest.toList) ∧
        lines.length = 2 + verbatim.length + blacklisted.length ∧
        (∀ line ∈ lines, "// ".toList <+: line) ∧
        lines[0]? = some ("// " ++ NameReport.heading "Verbatim" verbatim).toList ∧
        ((lines.drop 1).take verbatim.length).map (·.drop 3) = verbatim.map String.toList ∧
        lines[1 + verbatim.length]? =
          some ("// " ++ NameReport.heading "Blacklisted" blacklisted).toList ∧
        (lines.drop (2 + verbatim.length)).map (·.drop 3) = blacklisted.map String.toList) ∧
      verbatim.Nodup ∧ blacklisted.Nodup := by
  intro result verbatim blacklisted
  obtain ⟨r, hreport, hverbatim, hblacklisted, hcommented⟩ :=
    exists_report synthesize store known m ho s steps
  refine ⟨r, hreport, hcommented, ?_, SideFile.State.nodup_names _, SideFile.State.nodup_names _⟩
  intro hcomment
  have honeLine : ∀ line ∈ r.lines, Text.OneLine line := by
    refine NameReport.oneLine_lines hcomment ?_ ?_
    · rw [hverbatim]
      exact SideFile.State.oneLine_names _
    · rw [hblacklisted]
      exact SideFile.State.oneLine_names _
  have hpieces := NameReport.pieces_append honeLine
  have hunmarked := NameReport.unmarked_lines hcomment
  rw [show verbatim = r.verbatim from hverbatim.symm,
    show blacklisted = r.blacklisted from hblacklisted.symm]
  refine ⟨r.lines.map String.toList, ?_, hpieces, ?_, ?_, ?_, ?_, ?_, ?_⟩
  · have hend := hpieces ""
    rwa [String.append_empty] at hend
  · rw [List.length_map]
    exact r.length_lines
  · intro line hline
    obtain ⟨s, hs, rfl⟩ := List.mem_map.1 hline
    exact NameReport.mark_prefix hcomment hs
  · exact NameReport.getElem?_lines hcomment rfl
  · rw [List.map_take, List.map_drop, hunmarked, ← List.map_drop, ← List.map_take,
      NameReport.verbatim_said]
  · exact NameReport.getElem?_lines hcomment NameReport.getElem?_said
  · rw [List.map_drop, hunmarked, ← List.map_drop, NameReport.blacklisted_said]

end VerboseRuns

/-- A store with a name on the verbatim list and two on the blacklist, one of them twice. -/
def inkStore : FileStore :=
  ⟨⟨[(["Test.verbatim"], .file "PI".toUTF8),
    (["Test.blacklist"], .file "Ink\r\nPen\n\nInk\n".toUTF8)]⟩, []⟩

/-- The options of a verbose run. -/
def verboseOptions : RunOptions := { RunOptions.ofModule "Test" with verbose := true }

/-- Two names are left out, one of them listed twice; the report of it is a comment. -/
theorem verbose_report_lines_ink :
    verboseOptions.verbose = true ∧
      let result := ((Plan.make toolNames inkStore .empty tools verboseOptions).carryOut inkStore
        toolSchedule).1.afterSteps toolSteps
      result.unified = "// tools\nBrush" ∧ ∃ r, result.report? = some r ∧
        r.text = "// Verbatim: 1\n// PI\n// Blacklisted: 2\n// Ink\n// Pen\n" ∧
        ∃ lines, Text.pieces '\n' r.text.toList = lines ++ [[]] ∧ lines.length = 5 ∧
          ∀ line ∈ lines, "// ".toList <+: line := by
  refine ⟨rfl, ?_⟩
  intro result
  have hunified : result.unified = "// tools\nBrush" := by decide +kernel
  have hnames : result.report? = some ⟨["PI"], ["Ink", "Pen"], true⟩ := by decide +kernel
  obtain ⟨r, hreport, hcommented, hlines, -, -⟩ := verbose_report_lines toolNames inkStore .empty
    tools verboseOptions rfl toolSchedule toolSteps
  have hr : r = ⟨["PI"], ["Ink", "Pen"], true⟩ := Option.some.inj (hreport.symm.trans hnames)
  have hcomment : r.commented = true := hcommented.2 (by rw [hunified]; decide)
  obtain ⟨lines, hcut, -, hlength, hmark, -⟩ := hlines hcomment
  refine ⟨hunified, r, hreport, ?_, lines, hcut, hlength.trans ?_, hmark⟩
  · rw [hr]
    decide +kernel
  · decide +kernel

end SwiftBindings
