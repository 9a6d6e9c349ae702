import ScriptLint.Analysis.Basic
import ScriptLint.Proofs.Reading.Program

/-! # How analyses end

An analysis that ends early says so twice: in its result, and by the terminal diagnostic at the end
of its list. The two agree, because every step of reading keeps the sink in line with how reading
goes on. No option, no comment and no limit can hide the one or bring up the other.

And every analysis ends. Every loop of reading makes progress: between two of its rounds the next
token moves on, and at the end of the input it goes on no more. Productions nest in proportion to
what is left of the source. So the fuel with which an analysis starts, which depends on the length of
the source alone, is never used up, whatever the options are.
-/

namespace ScriptLint

variable {α : Type}

/-- A step of scope analysis that ends early has recorded it. -/
theorem Scope.Action.Stepwise.records {action : Scope.Action α} (haction : action.Stepwise)
    {s : Scope.Session} (hs : s.sink.Records none) :
    (action.run.run s).2.sink.Records (Halt.ofOutcome? (action.run.run s).1) := by
  induction haction generalizing s with
  | pure | tracker | update => exact hs
  | report code position arguments scope hcode =>
      rw [run_report]
      exact hs.report hcode position arguments scope
  | @bind α β first next hfirst hnext ihfirst ihnext =>
      rw [run_bind]
      have hmiddle := ihfirst hs
      rcases hrun : first.run.run s with ⟨reason | a, s'⟩ <;> rw [hrun] at hmiddle
      · exact hmiddle
      · exact ihnext a hmiddle

namespace Reading

/-- The early end that reading stops for. -/
def Stop.halt? : Stop → Option Halt
  | halted reason => some reason
  | outOfFuel => none

/-- The early end that an outcome stands for. -/
def haltOf? : Except Stop α → Option Halt
  | .ok _ => none
  | .error stop => stop.halt?

/-- A step of reading that ends early has recorded it. -/
theorem Stepwise.records {step : Reading α} (hstep : Stepwise step) {s : State}
    (hs : s.session.sink.Records none) :
    (step.run.run s).2.session.sink.Records (haltOf? (step.run.run s).1) := by
  induction hstep generalizing s with
  | pure | outOfFuel => exact hs
  | @bind α β first next hfirst hnext ihfirst ihnext =>
      rw [run_bind]
      have hmiddle := ihfirst hs
      rcases hrun : first.run.run s with ⟨reason | a, s'⟩ <;> rw [hrun] at hmiddle
      · exact hmiddle
      · exact ihnext a hmiddle
  | observe hblind hnext ih => exact ih s hs
  | adjust hblind => exact State.sink_of_blind hblind s ▸ hs
  | filter hchange => exact hs.filter hchange
  | @scopes α action haction =>
      have hmiddle := haction.records hs
      rw [run_inScopes]
      rcases hrun : action.run.run s.session with ⟨reason | a, session⟩ <;> rw [hrun] at hmiddle <;>
        exact hmiddle
  | halt reason position => exact hs.terminate reason position _

end Reading

namespace Analysis

/-- The result of an analysis and its last diagnostic tell of the same early end, if any. -/
structure EndsAsReported (a : Analysis) : Prop where
  /-- The early end of the result is the one of the last diagnostic. -/
  last : ∀ reason, a.ending.halt? = some reason ↔
    ∃ d, a.diagnostics.getLast? = some d ∧ d.code = reason.code
  /-- No other diagnostic has the code of an early end. -/
  others : ∀ d ∈ a.diagnostics.dropLast, Halt.IsRegular d.code
  /-- Without an early end there is no such diagnostic. -/
  complete : a.ending.halt? = none ↔ ∀ d ∈ a.diagnostics, Halt.IsRegular d.code

theorem EndsAsReported.of_records {a : Analysis} {sink : Sink}
    (hdiagnostics : a.diagnostics = sink.finish) (hsink : sink.Records a.ending.halt?) :
    a.EndsAsReported := by
  cases hhalt : a.ending.halt? with
  | none =>
      rw [hhalt] at hsink
      have hregular : ∀ d ∈ a.diagnostics, Halt.IsRegular d.code :=
        hdiagnostics ▸ hsink.regular_of_mem_finish
      refine ⟨?_, ?_, iff_of_true hhalt hregular⟩
      · intro reason
        refine iff_of_false (by simp [hhalt]) ?_
        rintro ⟨d, hlast, hcode⟩
        exact reason.not_isRegular_code (hcode ▸ hregular d (List.mem_of_getLast? hlast))
      · intro d hmem
        exact hregular d (List.dropLast_subset _ hmem)
  | some reason =>
      rw [hhalt] at hsink
      obtain ⟨rest, d, hfinish, hcode, hregular⟩ := hsink.finish_eq_concat
      rw [hfinish] at hdiagnostics
      -- Codes tell early ends apart, so the last diagnostic tells this one and no other.
      refine ⟨?_, ?_, ?_⟩
      · intro reason'
        simp only [hhalt, hdiagnostics, List.getLast?_concat, Option.some.injEq,
          exists_eq_left', hcode]
        exact ⟨fun heq => heq ▸ rfl, Halt.code_injective⟩
      · rwa [hdiagnostics, List.dropLast_concat]
      · refine iff_of_false (by simp [hhalt]) fun hall => ?_
        exact reason.not_isRegular_code (hcode ▸ hall d (by simp [hdiagnostics]))

theorem halt?_ofOutcome (outcome : Except Reading.Stop Unit) :
    (Ending.ofOutcome outcome).halt? = Reading.haltOf? outcome := by
  rcases outcome with (reason | _) | _ <;> rfl

theorem halt?_ofOutcome_mapError (outcome : Except Halt Unit) :
    (Ending.ofOutcome (outcome.mapError .halted)).halt? = Halt.ofOutcome? outcome := by
  cases outcome <;> rfl

theorem endsAsReported_ofSource (source : String) (o : Options) (known : KnownGlobals) :
    (ofSource source o known).EndsAsReported := by
  have hrecords := (Reading.program_stepwise (Reading.nestingBound source.utf8ByteSize)).records
    (s := startState source o known) (.start _ _ _)
  rw [← halt?_ofOutcome] at hrecords
  exact .of_records rfl hrecords

theorem endsAsReported_ofNoText (o : Options) : (ofNoText o).EndsAsReported := by
  have hcode : Halt.IsRegular "E004" := by decide
  have hrecords :=
    (Sink.Records.start o.maxErrors 1 o.disabled).report hcode .start [] Scope.mainName
  rw [← halt?_ofOutcome_mapError] at hrecords
  exact .of_records rfl hrecords

/-- However a source or a file is analyzed, its early end is the one that the last diagnostic tells
of. -/
theorem ends_as_reported (o : Options) (known : KnownGlobals) :
    (∀ source, (ofSource source o known).EndsAsReported) ∧
      ∀ bytes, (ofBytes bytes o known).EndsAsReported := by
  refine ⟨fun source => endsAsReported_ofSource source o known, fun bytes => ?_⟩
  unfold ofBytes
  split
  · exact endsAsReported_ofSource _ o known
  · exact endsAsReported_ofNoText o

/-- The code of an early end cannot be disabled. -/
example :
    let a := ofSource "\x7b" { disabled := .ofList ["E006", "E041"] } {}
    a.ending = .halted .unrecoverable ∧ a.diagnostics.map (·.code) = ["E041"] := by
  decide +kernel

end Analysis

end ScriptLint

/-! ## Progress -/

namespace ScriptLint

namespace Reading

/-- A round of a loop makes progress where it is taken. It leads to a place in the same source; if
the loop goes on from there, the input had not ended before, and the next token is a later one.
Without an answer the analysis ends early, as long as the fuel is `enough`. -/
def Progresses {α : Type} [GoesOn α] (enough : Prop) (round : Reading α) (s : State) : Prop :=
  match round.run.run s with
  | (.ok a, s') =>
    s'.Ready ∧ s'.size = s.size ∧
      (goesOn a = true → s.lookahead.isEnd = false ∧
        s.lookahead.position.offset < s'.lookahead.position.offset)
  | (.error stop, _) => enough → ∃ reason, stop = .halted reason

theorem Advances.progresses {α : Type} [GoesOn α] {n : Nat} {round : Reading α}
    (hround : Advances n round) {s : State} (hs : s.Ready) {enough : Prop}
    (hn : enough → s.left < n) : Progresses enough round s := by
  have hmeets := (hround.meets hs hn).outcome
  unfold Progresses
  generalize round.run.run s = result at hmeets ⊢
  rcases result with ⟨stop | a, s'⟩
  · intro henough
    cases stop with
    | halted reason => exact ⟨reason, rfl⟩
    | outOfFuel => exact absurd rfl (hmeets henough)
  · have hmoves : s.Moves a s' := hmeets
    refine ⟨hmoves.reaches.ready, hmoves.reaches.size, fun hgoes => ?_⟩
    have hlt := hmoves.left_lt hgoes
    have hsize := hmoves.reaches.size
    refine ⟨?_, ?_⟩
    · cases hend : s.lookahead.isEnd with
      | false => rfl
      | true =>
          rw [hs.isEnd_iff.mp hend] at hlt
          exact absurd hlt (Nat.not_lt_zero _)
    · unfold State.left at hlt
      omega

/-- Every loop over some productions makes progress where it takes a round. -/
structure LoopsProgress (self : Productions) (enough : Prop) (s : State) : Prop where
  statements (top : Bool) (scan : ListScan) : Progresses enough (listRound self top scan) s
  directives (simpleParameters? : Option Bool) :
    Progresses enough (directiveRound simpleParameters?) s
  clauses (clause : Clause) : Progresses enough (switchRound self clause) s
  members : Progresses enough (classRound self) s
  properties (keys : KeyTable) :
    Progresses enough (commaRound "\x7d" (objectProperty self) propertyComma keys) s
  elements : Progresses enough (arrayElement self) s
  arguments (first? : Option Expression) :
    Progresses enough (commaRound ")" (argument self) argumentComma first?) s
  parameters (ps : Parameters) :
    Progresses enough (commaRound ")" (parameter self) parameterComma ps) s
  imports : Progresses enough (commaRound "\x7d" importItem noTrailingCheck ()) s
  exports (items : List ExportItem) :
    Progresses enough (commaRound "\x7d" exportItem noTrailingCheck items) s
  arrayPatterns (scan : PatternScan) :
    Progresses enough (commaRound "]" (arrayBindingElement self) noTrailingCheck scan) s
  objectPatterns (scan : PatternScan) :
    Progresses enough (commaRound "\x7d" (objectBindingElement self) noTrailingCheck scan) s
  assignedPatterns (closer : String) (inArray : Bool) (scan : PatternScan) :
    Progresses enough (commaRound closer (assignmentPart self inArray) noTrailingCheck scan) s
  substitutions : Progresses enough (substitution self) s
  operators (power : Nat) (left : Expression) :
    Progresses enough (operatorRound self power left) s
  callees : Progresses enough (calleeAccess self) s
  declarators (kind : Scope.BindingKind) (inHead : Bool) (ds : Declarations) :
    Progresses enough (declaratorRound self kind inHead ds) s

/-- Three levels of productions are enough for every byte that is left and for the end of the
input. -/
theorem loopsProgress (depth : Nat) {s : State} (hs : s.Ready) :
    LoopsProgress (productions depth) (3 * (s.left + 1) ≤ depth) s := by
  have := productions_steady (Nat.mul_div_le depth 3)
  have hn (henough : 3 * (s.left + 1) ≤ depth) : s.left < depth / 3 := by omega
  constructor <;> intros <;> exact Advances.progresses inferInstance hs hn

end Reading

namespace Analysis

theorem ready_startState (source : String) (o : Options) (known : KnownGlobals) :
    (startState source o known).Ready := .next (Cursor.ofSource_within source)

/-- The fuel of an analysis is enough for the whole source. -/
theorem ofSource_ending (source : String) (o : Options) (known : KnownGlobals) :
    (ofSource source o known).ending ≠ .outOfFuel := by
  let size := source.utf8ByteSize
  let s := startState source o known
  let self := Reading.productions (Reading.nestingBound size)
  have hself : self.Steady (size + 1) := by
    refine Reading.productions_steady ?_
    unfold Reading.nestingBound
    omega
  have hleft (_ : True) : s.left < size + 1 := Nat.lt_succ_of_le (Nat.sub_le _ _)
  have hready := ready_startState source o known
  have houtcome := ((Reading.program_steady self).meets hready hleft).outcome
  change Ending.ofOutcome ((Reading.program self).run.run s).1 ≠ .outOfFuel
  generalize (Reading.program self).run.run s = result at houtcome ⊢
  rcases result with ⟨(_ | _) | _, s'⟩
  · exact nofun
  · exact absurd rfl (houtcome trivial)
  · exact nofun

theorem ofNoText_ending (o : Options) : (ofNoText o).ending ≠ .outOfFuel := by
  let sink := Sink.start o.maxErrors 1 o.disabled
  change Ending.ofOutcome
    ((sink.report "E004" .start [] Scope.mainName).1.mapError .halted) ≠ .outOfFuel
  rcases (sink.report "E004" .start [] Scope.mainName).1 with _ | _ <;> exact nofun

theorem ofBytes_ending (bytes : ByteArray) (o : Options) (known : KnownGlobals) :
    (ofBytes bytes o known).ending ≠ .outOfFuel := by
  unfold ofBytes
  split
  · exact ofSource_ending _ o known
  · exact ofNoText_ending o

/-- Every analysis ends before its fuel does, for every loop makes progress from wherever it is, and
so does the search for the end of a group. -/
theorem terminates (o : Options) (known : KnownGlobals) :
    (∀ source, (ofSource source o known).ending ≠ .outOfFuel) ∧
      (∀ bytes, (ofBytes bytes o known).ending ≠ .outOfFuel) ∧
      (∀ source, (startState source o known).Ready) ∧
      (∀ depth s, s.Ready →
        Reading.LoopsProgress (Reading.productions depth) (3 * (s.left + 1) ≤ depth) s) ∧
      ∀ size (scan scan' : Reading.GroupScan), scan.stop.Within size → scan.step = .inl scan' →
        scan'.stop.Within size ∧ scan.stop.position.offset < scan'.stop.position.offset :=
  ⟨fun source => ofSource_ending source o known, fun bytes => ofBytes_ending bytes o known,
    fun source => ready_startState source o known, fun depth _ hs => Reading.loopsProgress depth hs,
    fun _ _ _ hscan hstep => Reading.GroupScan.step_advances hscan hstep⟩

end Analysis

end ScriptLint
