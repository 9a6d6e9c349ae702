import ScriptLint.Diagnostic.Sink

/-! # What the sink holds

What reports, early ends and comments do to the sink, one by one and over any history of them.
-/

/-! ## Terminal diagnostics

The sink records an early end by its terminal diagnostic, whose code is the one of the early end and
is shared with no accepted diagnostic. Reports and early ends keep this up, whatever is dropped and
wherever the limit lies; so does what comments change about the sink.
-/

namespace ScriptLint

namespace Halt

theorem not_isRegular_code (reason : Halt) : ¬ IsRegular reason.code := by
  cases reason <;> decide

theorem code_injective {reason reason' : Halt} (hcode : reason.code = reason'.code) :
    reason = reason' := by
  revert hcode
  cases reason <;> cases reason' <;> decide

/-- The early end that an outcome stands for. -/
def ofOutcome? {α : Type} : Except Halt α → Option Halt
  | .ok _ => none
  | .error reason => some reason

end Halt

namespace Sink

/-- A change of the sink that a comment may ask for. -/
class inductive Filter : (Sink → Sink) → Prop
  | setLimit (limit : Nat) : Filter (·.setLimit limit)
  | toggle (code : String) (line : Nat) (enabled : Bool) : Filter (·.toggle code line enabled)
  | beginIgnore (line : Nat) : Filter (·.beginIgnore line)
  | endIgnore (line : Nat) : Filter (·.endIgnore line)
  | ignoreLine (line : Nat) : Filter (·.ignoreLine line)

attribute [instance] Filter.setLimit Filter.toggle Filter.beginIgnore Filter.endIgnore
  Filter.ignoreLine

/-- No comment takes a diagnostic back or adds one. -/
theorem Filter.keeps {change : Sink → Sink} (hchange : Filter change) (s : Sink) :
    (change s).terminal? = s.terminal? ∧ (change s).accepted = s.accepted := by
  cases hchange with
  | setLimit | toggle | ignoreLine => exact ⟨rfl, rfl⟩
  | beginIgnore line =>
      simp only [Sink.beginIgnore]
      split <;> exact ⟨rfl, rfl⟩
  | endIgnore line =>
      simp only [Sink.endIgnore]
      split <;> exact ⟨rfl, rfl⟩

/-- The terminal diagnostic is the one of the early end, if there was one, and the accepted
diagnostics have other codes. -/
structure Records (s : Sink) (halt? : Option Halt) : Prop where
  terminal : s.terminal?.map (·.code) = halt?.map Halt.code
  regular : ∀ d ∈ s.accepted.toList, Halt.IsRegular d.code

namespace Records

variable {s : Sink} {halt? : Option Halt}

theorem start (limit totalLines : Nat) (disabled : Text.NameSet) :
    (Sink.start limit totalLines disabled).Records none :=
  ⟨rfl, by simp [Sink.start]⟩

theorem filter (hs : s.Records halt?) {change : Sink → Sink} (hchange : Filter change) :
    (change s).Records halt? := by
  obtain ⟨hterminal, haccepted⟩ := hchange.keeps s
  exact ⟨by rw [hterminal]; exact hs.terminal, by rw [haccepted]; exact hs.regular⟩

theorem terminal?_eq_none (hs : s.Records none) : s.terminal? = none := by
  simpa using hs.terminal

theorem isHalted_eq_false (hs : s.Records none) : s.isHalted = false := by
  rw [isHalted, hs.terminal?_eq_none]
  rfl

theorem terminate (hs : s.Records none) (reason : Halt) (position : Position) (scope : String) :
    (s.terminate reason.code position scope).Records (some reason) := by
  unfold Sink.terminate
  rw [hs.terminal?_eq_none]
  exact ⟨rfl, hs.regular⟩

theorem push (hs : s.Records halt?) {d : Diagnostic} (hcode : Halt.IsRegular d.code) :
    { s with accepted := s.accepted.push d }.Records halt? := by
  refine ⟨hs.terminal, fun d' hmem => ?_⟩
  rw [Array.toList_push, List.mem_append, List.mem_singleton] at hmem
  rcases hmem with hmem | rfl
  · exact hs.regular d' hmem
  · exact hcode

/-- A report with a code of its own ends the analysis together with the sink, or not at all. -/
theorem report (hs : s.Records none) {code : String} (hcode : Halt.IsRegular code)
    (position : Position) (arguments : List String) (scope : String) :
    (s.report code position arguments scope).2.Records
      (Halt.ofOutcome? (s.report code position arguments scope).1) := by
  unfold Sink.report
  dsimp only
  -- The report is dropped, or it is accepted, and then it may be the last one allowed.
  split
  · exact hs
  · have hpush := hs.push (d := { code, arguments, position, scope }) hcode
    split
    · exact hpush.terminate .tooManyErrors position scope
    · exact hpush

/-! ## What is left in the end -/

/-- What is left of a sink without an early end has codes of other diagnostics only. -/
theorem regular_of_mem_finish (hs : s.Records none) : ∀ d ∈ s.finish, Halt.IsRegular d.code := by
  intro d hmem
  unfold Sink.finish at hmem
  rw [hs.terminal?_eq_none, Option.toList_none, List.append_nil] at hmem
  exact hs.regular d (List.mem_filter.mp hmem).1

theorem not_isRegular_of_terminal (hs : s.Records halt?) {d : Diagnostic}
    (hterminal : d ∈ s.terminal?) : ¬ Halt.IsRegular d.code := by
  obtain ⟨reason, -, hcode⟩ : ∃ reason, halt? = some reason ∧ reason.code = d.code := by
    simpa [Option.mem_def.mp hterminal] using hs.terminal.symm
  exact hcode ▸ reason.not_isRegular_code

/-- Without the terminal diagnostic, what is left are the accepted ones on lines that count. -/
theorem filter_finish (hs : s.Records halt?) :
    s.finish.filter (fun d => Halt.IsRegular d.code) =
      s.accepted.toList.filter fun d => !s.ignoredLines.contains d.position.line := by
  have haccepted : ∀ d ∈ s.accepted.toList.filter fun d => !s.ignoredLines.contains d.position.line,
      decide (Halt.IsRegular d.code) = true := fun d hmem =>
    decide_eq_true (hs.regular d (List.mem_filter.mp hmem).1)
  have hterminal : ∀ d ∈ s.terminal?.toList, ¬ decide (Halt.IsRegular d.code) = true :=
    fun d hmem hregular =>
      hs.not_isRegular_of_terminal (Option.mem_toList.mp hmem) (of_decide_eq_true hregular)
  rw [Sink.finish, List.filter_append, List.filter_eq_self.mpr haccepted,
    List.filter_eq_nil_iff.mpr hterminal, List.append_nil]

/-- What is left of a sink after an early end has its terminal diagnostic last. -/
theorem finish_eq_concat {reason : Halt} (hs : s.Records (some reason)) :
    ∃ rest d, s.finish = rest ++ [d] ∧ d.code = reason.code ∧
      ∀ d' ∈ rest, Halt.IsRegular d'.code := by
  obtain ⟨d, hterminal, hcode⟩ : ∃ d, s.terminal? = some d ∧ d.code = reason.code := by
    simpa using hs.terminal
  refine ⟨s.accepted.toList.filter fun d => !s.ignoredLines.contains d.position.line, d, ?_, hcode,
    fun d' hmem => hs.regular d' (List.mem_filter.mp hmem).1⟩
  unfold Sink.finish
  rw [hterminal, Option.toList_some]

end Records

end Sink

end ScriptLint

/-! ## The sink over any history of operations

Reports, early ends and comments reach the sink in any order. Whatever the order, the sink only
appends; the terminal diagnostic closes the list; no other diagnostic tells the same of the same
place twice; and the limit is met by the report that reaches it, not later and not by others.
-/

namespace ScriptLint

namespace Diagnostic

def isTerminal (d : Diagnostic) : Bool := d.scanned?.isSome

/-- What a diagnostic tells, and of which place. -/
def key (d : Diagnostic) : String × Nat × Nat := (d.code, d.position.line, d.position.column)

theorem repeats_iff {d e : Diagnostic} : d.repeats e = true ↔ d.key = e.key := by
  simp [repeats, key, and_assoc]

end Diagnostic

namespace Sink

inductive Operation where
  | report (code : String) (position : Position) (arguments : List String) (scope : String)
  | terminate (code : String) (position : Position) (scope : String)
  | setLimit (limit : Nat)
  | toggle (code : String) (line : Nat) (enabled : Bool)
  | beginIgnore (line : Nat)
  | endIgnore (line : Nat)
  | ignoreLine (line : Nat)
deriving DecidableEq

/-- Only a report can fail. -/
def Operation.run (s : Sink) : Operation → Except Halt Unit × Sink
  | .report code position arguments scope => s.report code position arguments scope
  | .terminate code position scope => (.ok (), s.terminate code position scope)
  | .setLimit limit => (.ok (), s.setLimit limit)
  | .toggle code line enabled => (.ok (), s.toggle code line enabled)
  | .beginIgnore line => (.ok (), s.beginIgnore line)
  | .endIgnore line => (.ok (), s.endIgnore line)
  | .ignoreLine line => (.ok (), s.ignoreLine line)

/-- The sink after a history, in which failed reports are not followed by an end. -/
def after (s : Sink) (history : List Operation) : Sink :=
  history.foldl (fun s operation => (operation.run s).2) s

/-! ## What one operation does -/

/-- What a report drops, apart from the end of the analysis. -/
def Drops (s : Sink) (d : Diagnostic) : Prop :=
  s.suppresses d.code d.position.line = true ∨ ∃ e ∈ s.accepted, e.key = d.key

/-- What a diagnostic repeats is not left out with other codes. -/
theorem exists_mem_filter_iff {accepted : Array Diagnostic} {keep : Diagnostic → Bool}
    {d : Diagnostic} (hkeep : ∀ e, e.code = d.code → keep e = true) :
    (∃ e ∈ accepted.filter keep, e.key = d.key) ↔ ∃ e ∈ accepted, e.key = d.key := by
  constructor
  · rintro ⟨e, hmem, hkey⟩
    exact ⟨e, (Array.mem_filter.mp hmem).1, hkey⟩
  · rintro ⟨e, hmem, hkey⟩
    exact ⟨e, Array.mem_filter.mpr ⟨hmem, hkeep e (congrArg Prod.fst hkey)⟩, hkey⟩

/-- The changes of the two lists of a sink, with the outcome that goes with each. -/
inductive Effect (s : Sink) : Except Halt Unit × Sink → Prop
  | keeps (s' : Sink) (haccepted : s'.accepted = s.accepted)
      (hterminal : s'.terminal? = s.terminal?) : Effect s (.ok (), s')
  | accepts (d : Diagnostic) (hopen : s.terminal? = none) (hregular : d.isTerminal = false)
      (hdrops : ¬ s.Drops d) (hlimit : s.limit = 0 ∨ s.accepted.size + 1 < s.limit) :
      Effect s (.ok (), { s with accepted := s.accepted.push d })
  | exhausts (d last : Diagnostic) (hopen : s.terminal? = none) (hregular : d.isTerminal = false)
      (hlast : last.isTerminal = true) (hdrops : ¬ s.Drops d) (hpos : 0 < s.limit)
      (hlimit : s.limit ≤ s.accepted.size + 1) :
      Effect s (.error .tooManyErrors,
        { s with accepted := s.accepted.push d, terminal? := some last })
  | ends (last : Diagnostic) (hopen : s.terminal? = none) (hlast : last.isTerminal = true) :
      Effect s (.ok (), { s with terminal? := some last })

theorem terminate_of_isHalted {s : Sink} (hhalted : s.isHalted = true) (code : String)
    (position : Position) (scope : String) : s.terminate code position scope = s := by
  obtain ⟨last, hlast⟩ := Option.isSome_iff_exists.mp hhalted
  simp only [terminate, hlast]

theorem terminate_of_open {s : Sink} (hopen : s.terminal? = none) (code : String)
    (position : Position) (scope : String) :
    s.terminate code position scope =
      { s with
        terminal? := some
          { code, arguments := [], position, scope
            scanned? := some (s.scannedPercent position) } } := by
  simp only [terminate, hopen]

/-- The terminal diagnostic of the limit. -/
def limitEntry (s : Sink) (position : Position) (scope : String) : Diagnostic :=
  { code := Halt.tooManyErrors.code, arguments := [], position, scope,
    scanned? := some (s.scannedPercent position) }

section Report

variable {s : Sink} {code : String} {position : Position} {arguments : List String}
  {scope : String}

theorem any_repeats_iff (accepted : Array Diagnostic) (d : Diagnostic) :
    accepted.any (·.repeats d) = true ↔ ∃ e ∈ accepted, e.key = d.key := by
  simp only [Array.any_eq_true', Diagnostic.repeats_iff]

theorem report_of_dropped
    (hdropped : s.isHalted = true ∨ s.Drops { code, arguments, position, scope }) :
    s.report code position arguments scope = (.ok (), s) := by
  unfold report
  rw [if_pos]
  rcases hdropped with hhalted | hsuppressed | hrepeated
  · simp [hhalted]
  · simp [show s.suppresses code position.line = true from hsuppressed]
  · simp [(any_repeats_iff _ _).mpr hrepeated]

/-- A report that is not dropped adds its diagnostic; whether it fails is up to the limit alone. -/
theorem report_of_accepted (hopen : s.terminal? = none)
    (haccepted : ¬ s.Drops { code, arguments, position, scope }) :
    s.report code position arguments scope =
      if 0 < s.limit ∧ s.limit ≤ s.accepted.size + 1 then
        (.error .tooManyErrors,
          { s with
            accepted := s.accepted.push { code, arguments, position, scope }
            terminal? := some (s.limitEntry position scope) })
      else
        (.ok (), { s with accepted := s.accepted.push { code, arguments, position, scope } }) := by
  obtain ⟨hshown, hnew⟩ := not_or.mp haccepted
  have hkept : ¬ (s.isHalted || s.suppresses code position.line ||
      s.accepted.any (·.repeats { code, arguments, position, scope })) = true := by
    rw [Bool.or_eq_true, Bool.or_eq_true, any_repeats_iff]
    rintro ((hhalted | hsuppressed) | hrepeated)
    · simp [isHalted, hopen] at hhalted
    · exact hshown hsuppressed
    · exact hnew hrepeated
  unfold report
  rw [if_neg hkept]
  simp only [Array.size_push, terminate, hopen]
  rfl

/-- A report adds its diagnostic or nothing. -/
theorem mem_report_accepted {d : Diagnostic}
    (hmem : d ∈ (s.report code position arguments scope).2.accepted) :
    d ∈ s.accepted ∨ d = { code, arguments, position, scope } := by
  by_cases hdropped : s.isHalted = true ∨ s.Drops { code, arguments, position, scope }
  · rw [report_of_dropped hdropped] at hmem
    exact .inl hmem
  · obtain ⟨hhalted, hdrops⟩ := not_or.mp hdropped
    have hopen : s.terminal? = none := by simpa [isHalted] using hhalted
    rw [report_of_accepted hopen hdrops] at hmem
    split at hmem <;> exact Array.mem_push.mp hmem

theorem report_accepted_of_shown (hopen : s.isHalted = false)
    (hshown : ¬ s.Drops { code, arguments, position, scope }) :
    (s.report code position arguments scope).2.accepted =
      s.accepted.push { code, arguments, position, scope } := by
  rw [report_of_accepted (by simpa [isHalted] using hopen) hshown]
  split <;> rfl

end Report

theorem Operation.run_effect (operation : Operation) (s : Sink) : s.Effect (operation.run s) := by
  cases operation with
  | report code position arguments scope =>
      by_cases hdropped : s.isHalted = true ∨ s.Drops { code, arguments, position, scope }
      · rw [Operation.run, report_of_dropped hdropped]
        exact .keeps s rfl rfl
      · obtain ⟨hhalted, hdrops⟩ := not_or.mp hdropped
        have hopen : s.terminal? = none := by simpa [isHalted] using hhalted
        rw [Operation.run, report_of_accepted hopen hdrops]
        split
        next hreached =>
          exact .exhausts _ _ hopen rfl rfl hdrops hreached.1 hreached.2
        next hbelow =>
          exact .accepts _ hopen rfl hdrops (by omega)
  | terminate code position scope =>
      by_cases hhalted : s.isHalted = true
      · rw [Operation.run, terminate_of_isHalted hhalted]
        exact .keeps s rfl rfl
      · have hopen : s.terminal? = none := by simpa [isHalted] using hhalted
        rw [Operation.run, terminate_of_open hopen]
        exact .ends _ hopen rfl
  | setLimit limit => exact .keeps _ rfl rfl
  | toggle code line enabled => exact .keeps _ rfl rfl
  | ignoreLine line => exact .keeps _ rfl rfl
  | beginIgnore line =>
      obtain ⟨hterminal, haccepted⟩ := (Filter.beginIgnore line).keeps s
      exact .keeps _ haccepted hterminal
  | endIgnore line =>
      obtain ⟨hterminal, haccepted⟩ := (Filter.endIgnore line).keeps s
      exact .keeps _ haccepted hterminal

/-! ## What one operation leaves alone -/

theorem report_frame (s : Sink) (code : String) (position : Position) (arguments : List String)
    (scope : String) :
    ∃ accepted terminal?, (s.report code position arguments scope).2 =
      { s with accepted, terminal? } := by
  by_cases hdropped : s.isHalted = true ∨ s.Drops { code, arguments, position, scope }
  · rw [report_of_dropped hdropped]
    exact ⟨s.accepted, s.terminal?, rfl⟩
  · obtain ⟨hhalted, hdrops⟩ := not_or.mp hdropped
    have hopen : s.terminal? = none := by simpa [isHalted] using hhalted
    rw [report_of_accepted hopen hdrops]
    split
    · exact ⟨_, _, rfl⟩
    · exact ⟨_, s.terminal?, rfl⟩

theorem terminate_frame (s : Sink) (code : String) (position : Position) (scope : String) :
    ∃ terminal?, s.terminate code position scope = { s with terminal? } := by
  unfold terminate
  split
  · exact ⟨s.terminal?, rfl⟩
  · exact ⟨_, rfl⟩

theorem beginIgnore_frame (s : Sink) (line : Nat) :
    ∃ regions, s.beginIgnore line = { s with regions } := by
  unfold beginIgnore
  split
  · exact ⟨s.regions, rfl⟩
  · exact ⟨_, rfl⟩

theorem endIgnore_frame (s : Sink) (line : Nat) :
    ∃ regions, s.endIgnore line = { s with regions } := by
  unfold endIgnore
  split
  · exact ⟨_, rfl⟩
  · exact ⟨s.regions, rfl⟩

namespace Operation

/-- The limit is changed by its own operation only. -/
theorem run_limit (operation : Operation) (s : Sink) :
    (operation.run s).2.limit = s.limit ∨ operation = .setLimit (operation.run s).2.limit := by
  cases operation with
  | setLimit limit => exact .inr rfl
  | toggle | ignoreLine => exact .inl rfl
  | report code position arguments scope =>
      obtain ⟨_, _, hframe⟩ := report_frame s code position arguments scope
      left
      rw [run, hframe]
  | terminate code position scope =>
      obtain ⟨_, hframe⟩ := terminate_frame s code position scope
      left
      rw [run, hframe]
  | beginIgnore line =>
      obtain ⟨_, hframe⟩ := beginIgnore_frame s line
      left
      rw [run, hframe]
  | endIgnore line =>
      obtain ⟨_, hframe⟩ := endIgnore_frame s line
      left
      rw [run, hframe]

theorem mem_run_ignoredLines (operation : Operation) (s : Sink) (line : Nat) :
    line ∈ (operation.run s).2.ignoredLines ↔
      line ∈ s.ignoredLines ∨ operation = .ignoreLine line := by
  cases operation with
  | ignoreLine other =>
      simp only [run, Sink.ignoreLine, List.mem_cons, Operation.ignoreLine.injEq]
      rw [or_comm, eq_comm]
  | setLimit | toggle => simp [run, Sink.setLimit, Sink.toggle]
  | report code position arguments scope =>
      obtain ⟨_, _, hframe⟩ := report_frame s code position arguments scope
      simp [run, hframe]
  | terminate code position scope =>
      obtain ⟨_, hframe⟩ := terminate_frame s code position scope
      simp [run, hframe]
  | beginIgnore line =>
      obtain ⟨_, hframe⟩ := beginIgnore_frame s line
      simp [run, hframe]
  | endIgnore line =>
      obtain ⟨_, hframe⟩ := endIgnore_frame s line
      simp [run, hframe]

end Operation

/-! ## Invariants of a history -/

/-- The entries fall apart into accepted diagnostics, none told twice, and a terminal one. -/
structure Sound (s : Sink) : Prop where
  regular : ∀ d ∈ s.accepted, d.isTerminal = false
  terminal : ∀ d ∈ s.terminal?, d.isTerminal = true
  distinct : (s.accepted.toList.map Diagnostic.key).Nodup

namespace Sound

variable {s : Sink}

theorem push (hs : s.Sound) {d : Diagnostic} (hregular : d.isTerminal = false)
    (hdrops : ¬ s.Drops d) (terminal? : Option Diagnostic)
    (hterminal : ∀ e ∈ terminal?, e.isTerminal = true) :
    { s with accepted := s.accepted.push d, terminal? }.Sound := by
  refine ⟨?_, hterminal, ?_⟩
  · intro e hmem
    rcases Array.mem_push.mp hmem with hmem | rfl
    · exact hs.regular e hmem
    · exact hregular
  · rw [Array.toList_push, List.map_append, List.nodup_append]
    refine ⟨hs.distinct, by simp, ?_⟩
    intro key hkey key' hkey' heq
    obtain ⟨e, hmem, rfl⟩ := List.mem_map.mp hkey
    rw [List.map_singleton, List.mem_singleton] at hkey'
    exact hdrops (.inr ⟨e, Array.mem_toList_iff.mp hmem, heq.trans hkey'⟩)

theorem step (hs : s.Sound) {result : Except Halt Unit × Sink} (heffect : s.Effect result) :
    result.2.Sound := by
  cases heffect with
  | keeps s' haccepted hterminal =>
      refine ⟨?_, ?_, ?_⟩
      · rw [haccepted]
        exact hs.regular
      · rw [hterminal]
        exact hs.terminal
      · rw [haccepted]
        exact hs.distinct
  | accepts d hopen hregular hdrops hlimit =>
      exact hs.push hregular hdrops s.terminal? hs.terminal
  | exhausts d last hopen hregular hlast hdrops hpos hlimit =>
      exact hs.push hregular hdrops (some last) (by simpa using hlast)
  | ends last hopen hlast => exact ⟨hs.regular, by simpa using hlast, hs.distinct⟩

theorem after (hs : s.Sound) (history : List Operation) : (s.after history).Sound := by
  induction history generalizing s with
  | nil => exact hs
  | cons operation history ih => exact ih (hs.step (operation.run_effect s))

end Sound

/-- The accepted diagnostics stay below the limit until a terminal one closes the list. -/
structure Within (s : Sink) : Prop where
  le : s.accepted.size ≤ s.limit
  closed : s.accepted.size = s.limit → s.terminal?.isSome

theorem Within.lt_of_open {s : Sink} (hs : s.Within) (hopen : s.terminal? = none) :
    s.accepted.size < s.limit := by
  refine Nat.lt_of_le_of_ne hs.le fun heq => ?_
  simpa [hopen] using hs.closed heq

theorem Within.step {s : Sink} (hs : s.Within) {result : Except Halt Unit × Sink}
    (heffect : s.Effect result) (hlimit : result.2.limit = s.limit) : result.2.Within := by
  cases heffect with
  | keeps s' haccepted hterminal =>
      refine ⟨?_, ?_⟩
      · rw [hlimit, haccepted]
        exact hs.le
      · rw [hlimit, haccepted, hterminal]
        exact hs.closed
  | accepts d hopen hregular hdrops hbelow =>
      have hsize : s.accepted.size < s.limit := hs.lt_of_open hopen
      refine ⟨?_, fun heq => ?_⟩
      · simp only [Array.size_push]
        omega
      · simp only [Array.size_push] at heq
        omega
  | exhausts d last hopen hregular hlast hdrops hpos hreached =>
      have hsize : s.accepted.size < s.limit := hs.lt_of_open hopen
      refine ⟨?_, fun _ => rfl⟩
      simp only [Array.size_push]
      omega
  | ends last hopen hlast => exact ⟨hs.le, fun _ => rfl⟩

theorem Within.after {s : Sink} (hs : s.Within) {history : List Operation}
    (hlimit : ∀ limit, .setLimit limit ∈ history → limit = s.limit) :
    (s.after history).Within ∧ (s.after history).limit = s.limit := by
  induction history generalizing s with
  | nil => exact ⟨hs, rfl⟩
  | cons operation history ih =>
      have hkept : (operation.run s).2.limit = s.limit := by
        rcases operation.run_limit s with hkept | hset
        · exact hkept
        · exact hlimit _ (hset ▸ List.mem_cons_self)
      obtain ⟨hwithin, hsame⟩ := ih (hs.step (operation.run_effect s) hkept)
        (fun limit hmem => hkept ▸ hlimit limit (List.mem_cons_of_mem _ hmem))
      exact ⟨hwithin, hsame.trans hkept⟩

theorem mem_after_ignoredLines (s : Sink) (history : List Operation) (line : Nat) :
    line ∈ (s.after history).ignoredLines ↔
      line ∈ s.ignoredLines ∨ .ignoreLine line ∈ history := by
  induction history generalizing s with
  | nil => simp [after]
  | cons operation history ih =>
      rw [show s.after (operation :: history) = (operation.run s).2.after history from rfl, ih,
        operation.mem_run_ignoredLines, List.mem_cons, or_assoc, eq_comm]

theorem Effect.of_isHalted {s : Sink} {result : Except Halt Unit × Sink}
    (heffect : s.Effect result) (hhalted : s.isHalted = true) :
    result.2.accepted = s.accepted ∧ result.2.terminal? = s.terminal? := by
  cases heffect with
  | keeps s' haccepted hterminal => exact ⟨haccepted, hterminal⟩
  | accepts d hopen => simp [isHalted, hopen] at hhalted
  | exhausts d last hopen => simp [isHalted, hopen] at hhalted
  | ends last hopen => simp [isHalted, hopen] at hhalted

theorem after_of_isHalted {s : Sink} (hhalted : s.isHalted = true) (later : List Operation) :
    (s.after later).accepted = s.accepted ∧ (s.after later).terminal? = s.terminal? := by
  induction later generalizing s with
  | nil => exact ⟨rfl, rfl⟩
  | cons operation later ih =>
      obtain ⟨haccepted, hterminal⟩ := (operation.run_effect s).of_isHalted hhalted
      have hnext := ih (s := (operation.run s).2) (by rw [isHalted, hterminal]; exact hhalted)
      exact ⟨hnext.1.trans haccepted, hnext.2.trans hterminal⟩

/-! ## The contract -/

/-- The entries other than the terminal one. -/
def regular (s : Sink) : List Diagnostic := s.entries.filter (!·.isTerminal)

namespace Sound

variable {s : Sink}

theorem regular_eq (hs : s.Sound) : s.regular = s.accepted.toList := by
  have haccepted : s.accepted.toList.filter (!·.isTerminal) = s.accepted.toList := by
    refine List.filter_eq_self.mpr fun d hmem => ?_
    simp [hs.regular d (Array.mem_toList_iff.mp hmem)]
  have hterminal : s.terminal?.toList.filter (!·.isTerminal) = [] := by
    refine List.filter_eq_nil_iff.mpr fun d hmem => ?_
    simp [hs.terminal d (Option.mem_toList.mp hmem)]
  rw [Sink.regular, entries, List.filter_append, haccepted, hterminal, List.append_nil]

theorem isHalted_iff (hs : s.Sound) : s.isHalted = true ↔ ∃ d ∈ s.entries, d.isTerminal = true := by
  constructor
  · intro hhalted
    obtain ⟨last, hlast⟩ := Option.isSome_iff_exists.mp hhalted
    exact ⟨last, by simp [entries, hlast], hs.terminal last hlast⟩
  · rintro ⟨d, hmem, hterminal⟩
    rcases List.mem_append.mp hmem with hmem | hmem
    · simp [hs.regular d (Array.mem_toList_iff.mp hmem)] at hterminal
    · exact Option.isSome_iff_exists.mpr ⟨d, Option.mem_toList.mp hmem⟩

theorem eq_nil_of_terminal (hs : s.Sound) {before later : List Diagnostic} {d : Diagnostic}
    (hentries : s.entries = before ++ d :: later) (hterminal : d.isTerminal = true) :
    later = [] := by
  cases hlast : s.terminal? with
  | none =>
      have hmem : d ∈ s.accepted := by
        have hmem : d ∈ s.entries := hentries ▸ List.mem_append_right _ List.mem_cons_self
        simpa [entries, hlast] using hmem
      simp [hs.regular d hmem] at hterminal
  | some last =>
      -- Were something to follow, the entry would lie before the last one.
      rcases List.eq_nil_or_concat later with rfl | ⟨middle, final, rfl⟩
      · rfl
      · rw [entries, hlast, Option.toList_some, List.concat_eq_append, ← List.cons_append,
          ← List.append_assoc] at hentries
        have hmem : d ∈ s.accepted.toList := by
          rw [(List.append_inj' hentries rfl).1]
          exact List.mem_append_right _ List.mem_cons_self
        simp [hs.regular d (Array.mem_toList_iff.mp hmem)] at hterminal

theorem drops_iff (hs : s.Sound) (d : Diagnostic) :
    s.Drops d ↔ s.suppresses d.code d.position.line = true ∨ ∃ e ∈ s.regular, e.key = d.key := by
  simp only [Drops, hs.regular_eq, Array.mem_toList_iff]

theorem finish_eq (hs : s.Sound) :
    s.finish =
      s.entries.filter fun d => d.isTerminal || !s.ignoredLines.contains d.position.line := by
  have haccepted : s.accepted.toList.filter
        (fun d => d.isTerminal || !s.ignoredLines.contains d.position.line) =
      s.accepted.toList.filter fun d => !s.ignoredLines.contains d.position.line := by
    refine List.filter_congr fun d hmem => ?_
    rw [hs.regular d (Array.mem_toList_iff.mp hmem), Bool.false_or]
  have hterminal : s.terminal?.toList.filter
        (fun d => d.isTerminal || !s.ignoredLines.contains d.position.line) =
      s.terminal?.toList := by
    refine List.filter_eq_self.mpr fun d hmem => ?_
    rw [hs.terminal d (Option.mem_toList.mp hmem), Bool.true_or]
  rw [finish, entries, List.filter_append, haccepted, hterminal]

end Sound

theorem Effect.appends {s : Sink} {result : Except Halt Unit × Sink} (heffect : s.Effect result) :
    ∃ added, result.2.entries = s.entries ++ added ∧
      added.length ≤ 2 ∧ (added.length = 2 ↔ result.1 ≠ .ok ()) := by
  cases heffect with
  | keeps s' haccepted hterminal =>
      exact ⟨[], by simp [entries, haccepted, hterminal], by simp, by simp⟩
  | accepts d hopen => exact ⟨[d], by simp [entries, hopen], by simp, by simp⟩
  | exhausts d last hopen => exact ⟨[d, last], by simp [entries, hopen], by simp, by simp⟩
  | ends last hopen => exact ⟨[last], by simp [entries, hopen], by simp, by simp⟩

/-- Whether a report adds its diagnostic, and with what outcome. -/
theorem report_entries (s : Sink) (code : String) (position : Position) (arguments : List String)
    (scope : String) :
    let d : Diagnostic := { code, arguments, position, scope }
    let result := s.report code position arguments scope
    ((s.isHalted = true ∨ s.Drops d) ∧ result.1 = .ok () ∧ result.2.entries = s.entries) ∨
      (¬ (s.isHalted = true ∨ s.Drops d) ∧ ¬ (0 < s.limit ∧ s.limit ≤ s.entries.length + 1) ∧
        result.1 = .ok () ∧ result.2.entries = s.entries ++ [d]) ∨
      (¬ (s.isHalted = true ∨ s.Drops d) ∧ (0 < s.limit ∧ s.limit ≤ s.entries.length + 1) ∧
        result.1 ≠ .ok () ∧
        result.2.entries = s.entries ++ [d, s.limitEntry position scope]) := by
  intro d result
  by_cases hdropped : s.isHalted = true ∨ s.Drops d
  · have hresult : result = (.ok (), s) := report_of_dropped hdropped
    rw [hresult]
    exact .inl ⟨hdropped, rfl, rfl⟩
  · obtain ⟨hhalted, hdrops⟩ := not_or.mp hdropped
    have hopen : s.terminal? = none := by simpa [isHalted] using hhalted
    have hlength : s.entries.length = s.accepted.size := by simp [entries, hopen]
    have hresult := report_of_accepted hopen hdrops
    rw [← hlength] at hresult
    by_cases hreached : 0 < s.limit ∧ s.limit ≤ s.entries.length + 1
    · rw [if_pos hreached] at hresult
      rw [show result = _ from hresult]
      exact .inr (.inr ⟨hdropped, hreached, nofun, by simp [entries, hopen, d]⟩)
    · rw [if_neg hreached] at hresult
      rw [show result = _ from hresult]
      exact .inr (.inl ⟨hdropped, hreached, rfl, by simp [entries, hopen, d]⟩)

/-- What a sink that started empty with a limit warrants after a history of operations. -/
structure Contract (limit : Nat) (history : List Operation) (s : Sink) : Prop where
  terminal_last : ∀ before d later, s.entries = before ++ d :: later → d.isTerminal = true →
    later = []
  terminal_closes : (∃ d ∈ s.entries, d.isTerminal = true) →
    ∀ later, (s.after later).entries = s.entries
  distinct : (s.regular.map Diagnostic.key).Nodup
  /-- Two entries are added by a report that fails, and by nothing else. -/
  appends : ∀ operation : Operation, ∃ added,
    (operation.run s).2.entries = s.entries ++ added ∧ added.length ≤ 2 ∧
      (added.length = 2 ↔ (operation.run s).1 ≠ .ok ())
  /-- A report is accepted unless the list is closed, the report is suppressed, or the same was
  told of the same place by an accepted one. -/
  accepts : ∀ code position arguments scope,
    (∃ rest, (s.report code position arguments scope).2.entries =
        s.entries ++ ({ code, arguments, position, scope } : Diagnostic) :: rest) ↔
      s.isHalted = false ∧ s.suppresses code position.line = false ∧
        ¬ ∃ e ∈ s.regular, e.key = (code, position.line, position.column)
  fails : ∀ code position arguments scope,
    (s.report code position arguments scope).1 ≠ .ok () ↔
      (∃ rest, (s.report code position arguments scope).2.entries =
        s.entries ++ ({ code, arguments, position, scope } : Diagnostic) :: rest) ∧
      0 < s.limit ∧ s.limit ≤ s.entries.length + 1
  fails_entries : ∀ code position arguments scope,
    (s.report code position arguments scope).1 ≠ .ok () →
      (s.report code position arguments scope).2.entries =
        s.entries ++ [{ code, arguments, position, scope }, s.limitEntry position scope]
  dropped : ∀ code position arguments scope,
    (s.suppresses code position.line = true ∨
      ∃ e ∈ s.regular, e.key = (code, position.line, position.column)) →
    s.report code position arguments scope = (.ok (), s)
  /-- The limit is met exactly, as long as nothing changes it. -/
  within : 0 < limit → (∀ limit', .setLimit limit' ∈ history → limit' = limit) →
    s.regular.length ≤ limit ∧
      (s.regular.length = limit → ∃ d ∈ s.entries, d.isTerminal = true)
  finish : s.finish = s.entries.filter fun d =>
    d.isTerminal || decide (Operation.ignoreLine d.position.line ∉ history)

theorem sound_start (limit totalLines : Nat) (disabled : Text.NameSet) :
    (start limit totalLines disabled).Sound :=
  ⟨by simp [start], by simp [start], by simp [start]⟩

/-- The contract holds after any operations in any order. -/
theorem contract_of_history (limit totalLines : Nat) (disabled : Text.NameSet)
    (history : List Operation) :
    Contract limit history ((start limit totalLines disabled).after history) := by
  have hs := (sound_start limit totalLines disabled).after history
  have hlimit (hpos : 0 < limit) (hfixed : ∀ limit', .setLimit limit' ∈ history → limit' = limit) :
      ((start limit totalLines disabled).after history).Within ∧
        ((start limit totalLines disabled).after history).limit = limit :=
    Within.after (s := start limit totalLines disabled)
      ⟨Nat.zero_le _, fun heq => absurd heq (Nat.ne_of_lt hpos)⟩ hfixed
  have hignored (line : Nat) :
      line ∈ ((start limit totalLines disabled).after history).ignoredLines ↔
        .ignoreLine line ∈ history := by
    simp [mem_after_ignoredLines, start]
  generalize (start limit totalLines disabled).after history = s at hs hlimit hignored
  constructor
  case terminal_last => exact fun before d later => hs.eq_nil_of_terminal
  case terminal_closes =>
    intro hterminal later
    obtain ⟨haccepted, hterminal⟩ := after_of_isHalted (hs.isHalted_iff.mpr hterminal) later
    rw [entries, haccepted, hterminal, entries]
  case distinct =>
    rw [hs.regular_eq]
    exact hs.distinct
  case appends => exact fun operation => (operation.run_effect s).appends
  case accepts =>
    intro code position arguments scope
    have hdrops := hs.drops_iff { code, arguments, position, scope }
    have hiff : (s.isHalted = false ∧ s.suppresses code position.line = false ∧
        ¬ ∃ e ∈ s.regular, e.key = (code, position.line, position.column)) ↔
        ¬ (s.isHalted = true ∨ s.Drops { code, arguments, position, scope }) := by
      rw [hdrops, not_or, not_or, Bool.not_eq_true, Bool.not_eq_true]
      rfl
    rw [hiff]
    rcases report_entries s code position arguments scope with
      ⟨hdropped, -, hentries⟩ | ⟨haccepted, -, -, hentries⟩ | ⟨haccepted, -, -, hentries⟩
    · simp [hentries, hdropped]
    · simp [hentries, haccepted]
    · simp [hentries, haccepted]
  case fails =>
    intro code position arguments scope
    rcases report_entries s code position arguments scope with
      ⟨hdropped, houtcome, hentries⟩ | ⟨-, hbelow, houtcome, hentries⟩ |
      ⟨-, hreached, houtcome, hentries⟩
    · simp [houtcome, hentries]
    · simp [houtcome, hbelow]
    · simp [houtcome, hentries, hreached]
  case fails_entries =>
    intro code position arguments scope hfails
    rcases report_entries s code position arguments scope with
      ⟨-, houtcome, -⟩ | ⟨-, -, houtcome, -⟩ | ⟨-, -, -, hentries⟩
    · exact absurd houtcome hfails
    · exact absurd houtcome hfails
    · exact hentries
  case dropped =>
    intro code position arguments scope hdropped
    exact report_of_dropped (.inr ((hs.drops_iff _).mpr hdropped))
  case within =>
    intro hpos hfixed
    obtain ⟨hwithin, hsame⟩ := hlimit hpos hfixed
    rw [hs.regular_eq, ← hs.isHalted_iff, ← hsame, Array.length_toList]
    exact ⟨hwithin.le, hwithin.closed⟩
  case finish =>
    rw [hs.finish_eq]
    refine List.filter_congr fun d _ => ?_
    simp [← hignored]

end Sink

end ScriptLint
