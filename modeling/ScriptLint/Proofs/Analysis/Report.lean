import ScriptLint.Proofs.Analysis.Flag
import ScriptLint.Proofs.Diagnostic.Message
import ScriptLint.Proofs.Material.Program
import ScriptLint.Report

/-! # Messages and lines of the report

The message of a diagnostic is its template with the arguments put in at their places. They are put
in one after the other, and the only argument that this can change is the text that a jump leaves
unreached: a place for the second argument in it is filled as well.

The text report has an entry for each diagnostic, in the order of the files and of each file's
diagnostics, and a summary behind an empty line. An entry is a line unless its message shows a text
in which a line ends, and only strings and templates of the source bring such texts in.
-/

namespace ScriptLint

/-! ## Messages -/

namespace Analysis

open Message (Places fillLetter fillTogether letters template)

variable {source : String} {o : Options} {known : KnownGlobals} {d : Diagnostic}

theorem message_eq_fill (hd : d ∈ (ofSource source o known).diagnostics)
    (hregular : Halt.IsRegular d.code) :
    d.message = Message.fill (template d.code) d.arguments := by
  have hscanned : d.scanned? = none := by
    rcases List.mem_append.mp hd with haccepted | hterminal
    · have haccepted := Array.mem_toList_iff.mp (List.mem_filter.mp haccepted).1
      exact ((lastSink_anchored source o known).accepted d haccepted).2
    · exact absurd hregular <|
        (lastSink_records source o known).not_isRegular_of_terminal (Option.mem_toList.mp hterminal)
  rw [Diagnostic.message, hscanned]
  rfl

/-- A jump that is put into a text changes it exactly if the text has a place for it. -/
theorem fillLetter_jump_iff {word : String} (hword : word ∈ jumpWords) {text : List Char} :
    fillLetter 'b' word.toList text = text ↔ ¬ Places 'b' text := by
  refine ⟨fun heq hplace => ?_, Message.fillLetter_of_not_places⟩
  have hlength : ∀ word ∈ jumpWords, 3 < word.toList.length := by decide
  have hlonger := Message.length_fillLetter hplace (hlength word hword)
  rw [heq] at hlonger
  exact Nat.lt_irrefl _ hlonger

/-- The text that a jump leaves unreached is told with the jump in the places that it has for it. -/
theorem unreached_message {a b : String} (hd : d ∈ (ofSource source o known).diagnostics)
    (hcode : d.code = "W027") (hargs : d.arguments = [a, b]) :
    d.message = fillTogether (template "W027") [.ofList (fillLetter 'b' b.toList a.toList), b] ∧
      (d.message = fillTogether (template "W027") [a, b] ↔ ¬ Places 'b' a.toList) := by
  have hpairing : "W027" ∈ Message.pairingCodes := by decide
  have hmessage : d.message = fillTogether (template "W027")
      [.ofList (fillLetter 'b' b.toList a.toList), b] := by
    rw [message_eq_fill hd (hcode ▸ by decide), hcode, hargs, Message.fill_pairing hpairing]
  refine ⟨hmessage, ?_⟩
  rw [hmessage, Message.fillTogether_pairing_inj hpairing, ← String.toList_inj,
    String.toList_ofList]
  rcases not_places_or_unreached source o known hd hargs with hplaceless | ⟨-, hjump⟩
  · exact iff_of_true (Message.fillLetter_of_not_places hplaceless) hplaceless
  · exact fillLetter_jump_iff hjump

/-- In the message of a regular diagnostic, each place of the template has its argument. The
arguments are put in as if at once, so that they stay as they are, but for the text that a jump
leaves unreached: this one stays as it is only if it has no place for the jump. -/
theorem messages_filled (source : String) (o : Options) (known : KnownGlobals) :
    ∀ d ∈ (ofSource source o known).diagnostics, Halt.IsRegular d.code →
      (∀ letter ∈ letters, Places letter (template d.code).toList →
        ∃ a, (letter, a) ∈ letters.zip d.arguments) ∧
      (d.code ≠ "W027" → d.message = fillTogether (template d.code) d.arguments) ∧
      (d.code = "W027" → ∃ a b, d.arguments = [a, b] ∧
        d.message =
          fillTogether (template "W027") [.ofList (fillLetter 'b' b.toList a.toList), b] ∧
        (d.message = fillTogether (template "W027") [a, b] ↔ ¬ Places 'b' a.toList)) := by
  intro d hd hregular
  have htakes := takes_arguments source o known hd
  refine ⟨fun letter => Message.exists_argument htakes, fun hother => ?_, fun hcode => ?_⟩
  · rw [message_eq_fill hd hregular]
    refine Message.fill_eq_fillTogether htakes fun a b hargs => ?_
    exact (not_places_or_unreached source o known hd hargs).resolve_right fun h => hother h.1
  · obtain ⟨a, b, hargs⟩ := htakes.exists_pair (hcode ▸ by decide)
    exact ⟨a, b, hargs, unreached_message hd hcode hargs⟩

/-- A string that is spelled like a place for the jump is told as the jump. -/
theorem messages_filled_unreached :
    let source := "function f() \x7b return; \"\x7bb\x7d\"; \x7d"
    ∃ d ∈ (ofSource source {} {}).diagnostics, Halt.IsRegular d.code ∧ d.code = "W027" ∧
      d.arguments = ["\x7bb\x7d", "return"] ∧
      d.message = "Unreachable 'return' after 'return'." ∧
      fillTogether (template d.code) d.arguments = "Unreachable '\x7bb\x7d' after 'return'." ∧
      ∃ a b, d.arguments = [a, b] ∧
        d.message =
          fillTogether (template "W027") [.ofList (fillLetter 'b' b.toList a.toList), b] ∧
        (d.message = fillTogether (template "W027") [a, b] ↔ ¬ Places 'b' a.toList) := by
  intro source
  obtain ⟨d, hd, hregular, hcode, hargs, hmessage, htogether⟩ :
      ∃ d ∈ (ofSource source {} {}).diagnostics, Halt.IsRegular d.code ∧ d.code = "W027" ∧
        d.arguments = ["\x7bb\x7d", "return"] ∧
        d.message = "Unreachable 'return' after 'return'." ∧
        fillTogether (template d.code) d.arguments =
          "Unreachable '\x7bb\x7d' after 'return'." := by
    decide +kernel
  have hfilled := messages_filled source {} {} d hd hregular
  exact ⟨d, hd, hregular, hcode, hargs, hmessage, htogether, hfilled.2.2 hcode⟩

end Analysis

/-! ## Texts and lines -/

namespace Report

/-- The texts between the line ends of a text. -/
def linesOf (text : String) : List (List Char) := text.toList.splitOn '\n'

theorem linesOf_of_not_mem {text : String} (hline : '\n' ∉ text.toList) :
    linesOf text = [text.toList] := List.splitOn_eq_singleton hline

/-- A text is a line exactly if no line ends in it. -/
theorem linesOf_eq_singleton_iff {text : String} :
    linesOf text = [text.toList] ↔ '\n' ∉ text.toList := by
  refine ⟨fun heq hmem => ?_, linesOf_of_not_mem⟩
  obtain ⟨before, after, htext⟩ := List.append_of_mem hmem
  have hcount := congrArg List.length heq
  rw [linesOf, htext, List.splitOn, List.splitOnP_append_cons _ _ (by decide), List.length_append,
    List.length_singleton] at hcount
  have hbefore := List.length_pos_iff.mpr (List.splitOnP_ne_nil (· == '\n') before)
  have hafter := List.length_pos_iff.mpr (List.splitOnP_ne_nil (· == '\n') after)
  omega

/-- Texts that are ended by line ends, one after the other. -/
theorem linesOf_join (texts : List String) :
    linesOf (String.join (texts.map (· ++ "\n"))) = texts.flatMap linesOf ++ [[]] := by
  induction texts with
  | nil => rfl
  | cons text texts ih =>
      have htext : (String.join ((text :: texts).map (· ++ "\n"))).toList =
          text.toList ++ '\n' :: (String.join (texts.map (· ++ "\n"))).toList := by
        simp
      rw [linesOf, htext, List.splitOn, List.splitOnP_append_cons _ _ (by decide),
        List.flatMap_cons, List.append_assoc, ← ih]
      rfl

theorem not_mem_toString (n : Nat) : '\n' ∉ (toString n).toList := by
  intro hmem
  have hdigits : '\n' ∈ Nat.toDigits 10 n := by rwa [← Nat.toList_repr]
  have hdigit := Nat.isDigit_of_mem_toDigits (by decide) (by decide) hdigits
  cases hdigit

theorem not_mem_counted (n : Nat) (noun : String) (hnoun : '\n' ∉ noun.toList) :
    '\n' ∉ (counted n noun).toList := by
  have hcount := not_mem_toString n
  unfold counted
  split <;> simp_all [toString]

/-! ## Entries -/

theorem not_mem_code {code : String} {arguments : List String}
    (htakes : Message.Takes code arguments) : '\n' ∉ code.toList := by
  have hcodes : ∀ code ∈ "W087" :: (Message.bareCodes ++ Message.namingCodes ++
      Message.pairingCodes), '\n' ∉ code.toList := by
    simp only [Message.bareCodes, Message.namingCodes, Message.pairingCodes, List.cons_append,
      List.nil_append, List.forall_mem_cons]
    repeat' apply And.intro
    all_goals
      first
      | (rw [String.toList_ofList]; decide +kernel)
      | exact List.forall_mem_nil _
  refine hcodes code (List.mem_cons.mpr ?_)
  cases htakes with
  | bare hcode => exact .inr (List.mem_append_left _ (List.mem_append_left _ hcode))
  | naming hcode => exact .inr (List.mem_append_left _ (List.mem_append_right _ hcode))
  | pairing hcode => exact .inr (List.mem_append_right _ hcode)
  | unshown hcode => exact .inl hcode

theorem newline_mem_message_iff {d : Diagnostic} (htakes : Message.Takes d.code d.arguments) :
    '\n' ∈ d.message.toList ↔ ∃ a ∈ d.arguments, '\n' ∈ a.toList := by
  rw [← Message.newline_mem_fill_iff htakes]
  unfold Diagnostic.message
  dsimp only
  split
  next => rfl
  next percent _ =>
    have hpercent := not_mem_toString percent
    simp_all [toString, Diagnostic.template]

theorem newline_mem_line_iff {path : String} {d : Diagnostic} (hpath : '\n' ∉ path.toList)
    (htakes : Message.Takes d.code d.arguments) :
    '\n' ∈ (line path d).toList ↔ ∃ a ∈ d.arguments, '\n' ∈ a.toList := by
  rw [← newline_mem_message_iff htakes]
  have hline := not_mem_toString d.position.line
  have hcolumn := not_mem_toString d.position.column
  have hcode := not_mem_code htakes
  unfold line
  simp_all [toString]

theorem not_mem_shownPath {r : FileReport} (hpath : '\n' ∉ r.path.toList) :
    '\n' ∉ r.shownPath.toList := by
  unfold FileReport.shownPath
  rw [String.toList_ofList]
  intro hmem
  obtain ⟨c, hc, hshown⟩ := List.mem_map.mp hmem
  split at hshown
  · cases hshown
  · exact hpath (hshown ▸ hc)

theorem line_prefix (path : String) (d : Diagnostic) : path.toList <+: (line path d).toList := by
  unfold line
  simp [toString, List.prefix_append]

theorem line_suffix (path : String) (d : Diagnostic) :
    s!" ({d.code})".toList <:+ (line path d).toList := by
  refine ⟨s!"{path}: line {d.position.line}, col {d.position.column}, {d.message}".toList, ?_⟩
  unfold line
  simp [toString]

/-- The entry of a diagnostic begins with the path of its file and ends with its code. It is a line
unless an argument brings in a line end, and such an argument shows a string or a piece of a
template of the source. -/
structure Entry (r : FileReport) (source : String) (d : Diagnostic) : Prop where
  path : r.shownPath.toList <+: (line r.shownPath d).toList
  code : s!" ({d.code})".toList <:+ (line r.shownPath d).toList
  line_iff : linesOf (line r.shownPath d) = [(line r.shownPath d).toList] ↔
    ∀ a ∈ d.arguments, '\n' ∉ a.toList
  shown : ∀ a ∈ d.arguments, '\n' ∈ a.toList → Material.IsShownText source a

/-- The analyses of some files, each of them a path and a source. -/
def analyzed (files : List (String × String)) (o : Options) (known : KnownGlobals) :
    List FileReport :=
  files.map fun file => { path := file.1, analysis := .ofSource file.2 o known }

theorem entry_of_mem (path source : String) (o : Options) (known : KnownGlobals)
    (hpath : '\n' ∉ path.toList) {d : Diagnostic}
    (hd : d ∈ (Analysis.ofSource source o known).diagnostics) :
    Entry ⟨path, .ofSource source o known⟩ source d where
  path := line_prefix _ d
  code := line_suffix _ d
  line_iff := by
    rw [linesOf_eq_singleton_iff, newline_mem_line_iff (not_mem_shownPath hpath)
      (Analysis.takes_arguments source o known hd)]
    simp
  shown a ha hline := Analysis.isShownText_of_mem source o known hd ha hline

/-! ## The summary -/

theorem count_ofReports (reports : List FileReport) :
    (Totals.ofReports reports).count = (reports.flatMap (·.analysis.diagnostics)).length := by
  rw [List.length_eq_countP_add_countP (·.isError)]
  simp [Totals.ofReports, Totals.count]

theorem linesOf_summary {t : Totals} (hsome : t.count ≠ 0) :
    (summary t).flatMap linesOf = [[], (counted t.count "problem" ++ " (" ++
      (counted t.errors "error" ++ ", " ++ counted t.warnings "warning") ++ ")").toList] := by
  have hcount := not_mem_counted t.count "problem" (by decide)
  have herrors := not_mem_counted t.errors "error" (by decide)
  have hwarnings := not_mem_counted t.warnings "warning" (by decide)
  have hline : '\n' ∉ (counted t.count "problem" ++ " (" ++
      (counted t.errors "error" ++ ", " ++ counted t.warnings "warning") ++ ")").toList := by
    simp [hcount, herrors, hwarnings]
  rw [summary, if_neg hsome]
  simp only [List.flatMap_cons, List.flatMap_nil, List.append_nil, linesOf_of_not_mem hline]
  rfl

/-! ## The report -/

/-- The report is empty without diagnostics. Otherwise it has the entries of all diagnostics, one
behind the other, and the numbers behind an empty line. -/
theorem text_lines (files : List (String × String)) (o : Options) (known : KnownGlobals)
    (hpaths : ∀ file ∈ files, '\n' ∉ file.1.toList) :
    let reports := analyzed files o known
    let diagnostics := reports.flatMap (·.analysis.diagnostics)
    let errors := diagnostics.countP (·.isError)
    (diagnostics = [] → text reports = "") ∧
    (diagnostics ≠ [] → linesOf (text reports) =
      (reports.flatMap fun r => r.analysis.diagnostics.flatMap fun d =>
        linesOf (line r.shownPath d)) ++
      [[], (counted diagnostics.length "problem" ++ " (" ++ (counted errors "error" ++ ", " ++
        counted (diagnostics.length - errors) "warning") ++ ")").toList, []]) ∧
    ∀ file ∈ files, ∀ d ∈ (Analysis.ofSource file.2 o known).diagnostics,
      Entry ⟨file.1, .ofSource file.2 o known⟩ file.2 d := by
  intro reports diagnostics errors
  have hcount : (Totals.ofReports reports).count = diagnostics.length := count_ofReports reports
  refine ⟨fun hnone => ?_, fun hsome => ?_, fun file hfile d hd =>
    entry_of_mem file.1 file.2 o known (hpaths file hfile) hd⟩
  · have hlines : reports.flatMap lines = [] := by
      refine List.flatMap_eq_nil_iff.mpr fun r hr => ?_
      rw [lines, List.flatMap_eq_nil_iff.mp hnone r hr]
      rfl
    have hzero : (Totals.ofReports reports).count = 0 := by rw [hcount, hnone]; rfl
    rw [text, hlines, summary, if_pos hzero]
    rfl
  · have hne : (Totals.ofReports reports).count ≠ 0 := by
      rw [hcount]
      exact fun hzero => hsome (List.length_eq_zero_iff.mp hzero)
    have hwarnings : (Totals.ofReports reports).warnings = diagnostics.length - errors :=
      Nat.eq_sub_of_add_eq' hcount
    rw [text, linesOf_join, List.flatMap_append, linesOf_summary hne, hcount, hwarnings,
      List.flatMap_assoc, List.append_assoc]
    congr 1
    exact List.flatMap_congr fun r _ => List.flatMap_map ..

/-- A key with a line end in it, given twice, takes two lines of the report. -/
theorem text_lines_broken :
    let files := [("a\\b.js", "a = 1"), ("f.js", "x = \x7b\"a\\nb\": 1, \"a\\nb\": 2\x7d;")]
    let reports := analyzed files {} {}
    let diagnostics := reports.flatMap (·.analysis.diagnostics)
    (∀ file ∈ files, '\n' ∉ file.1.toList) ∧ diagnostics ≠ [] ∧
      linesOf (text reports) = ["a/b.js: line 1, col 6, Missing semicolon. (W033)",
        "f.js: line 1, col 17, Duplicate key 'a", "b'. (W075)", "",
        "2 problems (0 errors, 2 warnings)", ""].map String.toList ∧
      ∀ file ∈ files, ∀ d ∈ (Analysis.ofSource file.2 {} {}).diagnostics,
        Entry ⟨file.1, .ofSource file.2 {} {}⟩ file.2 d := by
  intro files reports diagnostics
  have hpaths : ∀ file ∈ files, '\n' ∉ file.1.toList := by decide +kernel
  have hlines := text_lines files {} {} hpaths
  exact ⟨hpaths, by decide +kernel, by decide +kernel, hlines.2.2⟩

end Report

end ScriptLint
