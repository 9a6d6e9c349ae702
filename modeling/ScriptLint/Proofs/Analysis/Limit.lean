import ScriptLint.Proofs.Analysis.Ending
import ScriptLint.Proofs.Reading.Simulation

/-! # Analyses with a limit or a disabled code

A limit on the number of diagnostics truncates the list and does nothing else: below the limit the
analysis is the same, and at the limit it stops with the diagnostics found so far. Sources whose
comments set the limit are left out, and so are those whose comments ignore their own lines, for
what is dropped there after the fact has been counted.

Disabling a code filters the list and does nothing else: nothing that reading or scope analysis does
depends on whether a report was accepted. That holds without a limit, which would count what is
filtered out, and for a code that no comment switches on or off.
-/

namespace ScriptLint.Analysis

open Reading (Path)

variable {source : String} {o : Options} {known : KnownGlobals}

/-- Reading a source to its end, or as far as it goes. -/
def reading (source : String) : Reading Unit :=
  Reading.program (Reading.productions (Reading.nestingBound source.utf8ByteSize))

/-- How reading goes, and the state that it leaves. -/
def run (source : String) (o : Options) (known : KnownGlobals) :
    Except Reading.Stop Unit × Reading.State :=
  (reading source).run.run (startState source o known)

/-- The sink that is left of an analysis. -/
def lastSink (source : String) (o : Options) (known : KnownGlobals) : Sink :=
  (run source o known).2.session.sink

theorem reading_stepwise (source : String) : Reading.Stepwise (reading source) :=
  Reading.program_stepwise _

/-- The analysis that a run of reading comes to. -/
def ofRun (result : Except Reading.Stop Unit × Reading.State) : Analysis where
  diagnostics := result.2.session.sink.finish
  summary := result.2.session.tracker.summary
  ending := .ofOutcome result.1

theorem ofSource_eq (source : String) (o : Options) (known : KnownGlobals) :
    ofSource source o known = ofRun (run source o known) := rfl

theorem lastSink_records (source : String) (o : Options) (known : KnownGlobals) :
    (lastSink source o known).Records (Reading.haltOf? (run source o known).1) :=
  (reading_stepwise source).records (.start _ _ _)

/-- What becomes of the sink but for the diagnostics is a matter of the comments of the source. -/
theorem lastSink_changes (source : String) (o : Options) (known : KnownGlobals) :
    (Sink.start o.maxErrors (Text.lineCount source.toList) o.disabled).Changes
      (Token.SetsOption source) (lastSink source o known) := by
  have := Reading.productions_stepwise (Reading.nestingBound source.utf8ByteSize)
  have hsteady : Reading.Steady 0 (reading source) := Reading.program_steady _
  have hmeets := hsteady.meets (ready_startState source o known) False.elim
  exact hmeets.leads.sink.mono fun _ hitem => hitem.setsOption

/-- No comment sets the limit: the one that an analysis starts with is the one it ends with. -/
def LeavesLimit (source : String) (o : Options) (known : KnownGlobals) : Prop :=
  ∀ limit, (lastSink source { o with maxErrors := limit } known).limit = limit

theorem LeavesLimit.of_not_setsOption
    (hlimit : ∀ value, ¬ Token.SetsOption source ("maxerr", some value)) :
    LeavesLimit source o known := by
  intro limit
  refine (lastSink_changes source { o with maxErrors := limit } known).limit.resolve_right ?_
  rintro ⟨value, hitem⟩
  exact hlimit value hitem

/-- What is hidden from reading in an analysis with a limit. -/
def limitedHidden (source : String) (o : Options) (limit : Nat) : Reading.Hidden :=
  ⟨.start limit (Text.lineCount source.toList) o.disabled, limit, o.disabled⟩

theorem startState_limit (source : String) (o : Options) (known : KnownGlobals) (limit : Nat) :
    startState source { o with maxErrors := limit } known =
      (startState source { o with maxErrors := 0 } known).hide (limitedHidden source o limit) := rfl

/-- The run without a limit tells: were the limit set by a comment, a limit that is high enough
would be overridden. -/
theorem LeavesLimit.path (hlimit : LeavesLimit source o known) :
    Path Sink.KeepsLimit (reading source) (startState source { o with maxErrors := 0 } known) := by
  have hcases := (reading_stepwise source).path_or_overrides
    (s := startState source { o with maxErrors := 0 } known) rfl
  rcases hcases with hpath | hoverrides
  · exact hpath
  · have hlow := hlimit 0
    let size := (lastSink source { o with maxErrors := 0 } known).accepted.size
    have hhigh := hlimit (size + 1)
    obtain ⟨h', hresult, hsink⟩ :=
      hoverrides (limitedHidden source o (size + 1)) (size + 1) rfl (Nat.lt_succ_self _)
    have hsame : lastSink source { o with maxErrors := size + 1 } known =
        lastSink source { o with maxErrors := 0 } known := by
      rw [lastSink, run, startState_limit, hresult]
      exact hsink.symm
    rw [hsame, hlow] at hhigh
    exact absurd hhigh (Nat.succ_ne_zero size).symm

/-- The run with a limit follows the one without until it has as many diagnostics. -/
theorem alike_of_path
    (hpath : Path Sink.KeepsLimit (reading source)
      (startState source { o with maxErrors := 0 } known)) {k : Nat} (hk : 0 < k) :
    Reading.Alike (Sink.Limited k) (Sink.Truncated k) (run source { o with maxErrors := 0 } known)
      (run source { o with maxErrors := k } known) :=
  hpath.simulates (Reading.simulation_limited k) (h := limitedHidden source o k) ⟨rfl, rfl, hk⟩

/-! ## The diagnostics that count -/

/-- The diagnostics of an analysis other than the terminal one. -/
def regular (a : Analysis) : List Diagnostic := a.diagnostics.filter fun d => Halt.IsRegular d.code

theorem regular_ofSource (source : String) (o : Options) (known : KnownGlobals) :
    (ofSource source o known).regular =
      (lastSink source o known).accepted.toList.filter fun d =>
        !(lastSink source o known).ignoredLines.contains d.position.line :=
  (lastSink_records source o known).filter_finish

/-- A limit that no comment moves truncates. -/
theorem truncates_of_leavesLimit {k : Nat} (hk : 0 < k) (hlimit : LeavesLimit source o known)
    (hlines : (lastSink source { o with maxErrors := 0 } known).ignoredLines = []) :
    let unlimited := ofSource source { o with maxErrors := 0 } known
    let limited := ofSource source { o with maxErrors := k } known
    (unlimited.regular.length < k → limited = unlimited) ∧
      (k ≤ unlimited.regular.length →
        limited.ending = .halted .tooManyErrors ∧
          ∃ d, d.code = Halt.tooManyErrors.code ∧
            limited.diagnostics = unlimited.regular.take k ++ [d]) := by
  intro unlimited limited
  have hregular : unlimited.regular =
      (lastSink source { o with maxErrors := 0 } known).accepted.toList := by
    rw [regular_ofSource, hlines]
    simp
  have hlength : unlimited.regular.length =
      (lastSink source { o with maxErrors := 0 } known).accepted.size := by
    rw [hregular, Array.length_toList]
  have hresult := alike_of_path hlimit.path hk
  have hlimited : limited = ofRun (run source { o with maxErrors := k } known) := rfl
  rw [hlength, hlimited, hregular]
  generalize run source { o with maxErrors := k } known = result' at hresult ⊢
  rcases hresult with ⟨h', hbeside⟩ | ⟨s', hbehind⟩
  · refine ⟨fun _ => ?_, fun hreached => absurd hbeside.below (Nat.not_lt_of_le hreached)⟩
    -- What is left of a sink does not depend on its limit.
    have hfinish : h'.sink.finish = (lastSink source { o with maxErrors := 0 } known).finish := by
      rw [hbeside.eq]
      rfl
    exact congrArg (Analysis.mk · unlimited.summary unlimited.ending) hfinish
  · refine ⟨fun hbelow => absurd hbehind.reached (Nat.not_le_of_lt hbelow), fun _ => ⟨rfl, ?_⟩⟩
    obtain ⟨d, hterminal, hcode⟩ := hbehind.terminal
    have hlines' : s'.session.sink.ignoredLines = [] :=
      List.suffix_nil.mp (hlines ▸ hbehind.ignoredLines)
    refine ⟨d, hcode, ?_⟩
    change s'.session.sink.finish = _
    rw [Sink.finish, hterminal, hlines', hbehind.accepted]
    simp [lastSink]

end ScriptLint.Analysis

/-! ## Disabled codes -/

namespace ScriptLint

namespace Sink

theorem keepsToggles_of_untoggled {code : String} {change : Sink → Sink} {a : Sink}
    (hchange : Filter change) (ha : (change a).Untoggled code) : KeepsToggles code change := by
  cases hchange with
  | setLimit | ignoreLine => exact fun _ hb => hb
  | toggle other line enabled =>
      have hother : other ≠ code := ha ⟨other, line, enabled⟩ List.mem_cons_self
      intro b hb toggle hmem
      rcases List.mem_cons.mp hmem with rfl | hmem
      · exact hother
      · exact hb toggle hmem
  | beginIgnore line =>
      intro b hb
      obtain ⟨_, hframe⟩ := beginIgnore_frame b line
      rw [show (fun b => beginIgnore line b) b = _ from hframe]
      exact hb
  | endIgnore line =>
      intro b hb
      obtain ⟨_, hframe⟩ := endIgnore_frame b line
      rw [show (fun b => endIgnore line b) b = _ from hframe]
      exact hb

/-- What is left of the sink without a code is what is left of the other, without the code. -/
theorem finish_without {a : Sink} {halt? : Option Halt} (ha : a.Records halt?) (code : String) :
    (a.without code).finish =
      a.finish.filter fun d => !decide (Halt.IsRegular d.code) || d.code != code := by
  have haccepted :
      (a.accepted.toList.filter fun d => !a.ignoredLines.contains d.position.line).filter
        (fun d => !decide (Halt.IsRegular d.code) || d.code != code) =
      (a.accepted.filter (·.code != code)).toList.filter
        fun d => !a.ignoredLines.contains d.position.line := by
    rw [Array.toList_filter, List.filter_filter, List.filter_filter]
    refine List.filter_congr fun d hmem => ?_
    rw [decide_eq_true (ha.regular d hmem), Bool.not_true, Bool.false_or, Bool.and_comm]
  have hterminal : a.terminal?.toList.filter
      (fun d => !decide (Halt.IsRegular d.code) || d.code != code) = a.terminal?.toList := by
    refine List.filter_eq_self.mpr fun d hmem => ?_
    rw [decide_eq_false (ha.not_isRegular_of_terminal (Option.mem_toList.mp hmem)), Bool.not_false,
      Bool.true_or]
  rw [finish, finish, List.filter_append, haccepted, hterminal]
  rfl

end Sink

namespace Reading

theorem simulation_filtered (code : String) :
    Sink.Simulation (fun change => Sink.KeepsLimit change ∧ Sink.KeepsToggles code change)
      (Sink.Filtered code) fun _ _ => False where
  filter hfiltered hfilter hkeeps := hfiltered.filter hfilter hkeeps.1 hkeeps.2
  terminate reason position scope hfiltered := hfiltered.terminate reason position scope
  report other position arguments scope hfiltered :=
    .inl (hfiltered.report other position arguments scope)
  grows hbehind _ := hbehind

end Reading

namespace Analysis

open Reading (Path)

variable {source : String} {o : Options} {known : KnownGlobals}

theorem untoggled_lastSink {code : String}
    (htoggles : ∀ item enabled, Token.SetsOption source item →
      codeToggle? item.1 ≠ some (code, enabled)) : (lastSink source o known).Untoggled code := by
  rintro toggle hmem rfl
  rcases (lastSink_changes source o known).toggles toggle hmem with hmem | ⟨item, hitem, hcode⟩
  · cases hmem
  · exact htoggles item toggle.enabled hitem hcode

/-- A code that no comment switches is filtered out when it is disabled. -/
theorem filters_of_untoggled (hzero : o.maxErrors = 0) (hlimit : LeavesLimit source o known)
    {code : String} (htoggles : (lastSink source o known).Untoggled code) :
    let a := ofSource source o known
    ofSource source { o with disabled := o.disabled.insert code } known =
      { a with
        diagnostics :=
          a.diagnostics.filter fun d => !decide (Halt.IsRegular d.code) || d.code != code } := by
  intro a
  have hoptions : { o with maxErrors := 0 } = o := by rw [← hzero]
  have hpath := hlimit.path
  rw [hoptions] at hpath
  have hpath' : Path (fun change => Sink.KeepsLimit change ∧ Sink.KeepsToggles code change)
      (reading source) (startState source o known) := by
    refine hpath.refine (fun hgrows huntoggled => ?_) (fun _ hfilter hkeeps huntoggled => ?_)
      htoggles
    · exact huntoggled.of_grows hgrows
    · exact ⟨hkeeps, Sink.keepsToggles_of_untoggled hfilter huntoggled⟩
  have hresult : Reading.Alike (Sink.Filtered code) (fun _ _ => False) (run source o known)
      (run source { o with disabled := o.disabled.insert code } known) :=
    hpath'.simulates (Reading.simulation_filtered code)
      (h := ⟨(startState source o known).session.sink.without code, o.maxErrors,
        o.disabled.insert code⟩) ⟨rfl, hzero, nofun⟩
  rw [ofSource_eq source { o with disabled := o.disabled.insert code }]
  generalize run source { o with disabled := o.disabled.insert code } known = result'
    at hresult ⊢
  rcases hresult with ⟨h', hbeside⟩ | ⟨_, hbehind⟩
  · have hfinish := Sink.finish_without (lastSink_records source o known) code
    rw [show (lastSink source o known).without code = h'.sink from hbeside.eq.symm] at hfinish
    exact congrArg (Analysis.mk · a.summary a.ending) hfinish
  · exact hbehind.elim

end Analysis

end ScriptLint
