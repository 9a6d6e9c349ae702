import ScriptLint.Proofs.Diagnostic.History
import ScriptLint.Proofs.Options.Tolerance
import ScriptLint.Proofs.Scope.Stepwise
import ScriptLint.Proofs.Scope.Outline

/-! # Reports without a limit

A sink that takes more, and scope analysis that reports to one.
-/

/-! ## Sinks that hold the diagnostics of others

Two sinks with the same filters and without a limit may take different reports. If the first one
takes every report of some codes that the second one takes, it ends up with a diagnostic of every
place for which the second one has one. Repetitions are dropped, so it need not be the same.
-/

namespace ScriptLint.Sink

variable {codes : List String} {p : String → Prop} {a b c : Sink}

/-- The second sink is the first with more diagnostics, all of them of codes of a kind. -/
structure Adds (p : String → Prop) (a b : Sink) : Prop where
  frame : ∃ accepted, b = { a with accepted }
  kept : ∀ d ∈ a.accepted, d ∈ b.accepted
  added : ∀ d ∈ b.accepted, d ∈ a.accepted ∨ p d.code

namespace Adds

theorem refl (a : Sink) : Adds p a a := ⟨⟨a.accepted, rfl⟩, fun _ => id, fun _ => .inl⟩

theorem trans (hab : Adds p a b) (hbc : Adds p b c) : Adds p a c where
  frame := by
    obtain ⟨_, rfl⟩ := hab.frame
    exact hbc.frame
  kept d hmem := hbc.kept d (hab.kept d hmem)
  added d hmem := (hbc.added d hmem).elim (hab.added d) .inr

theorem mono {q : String → Prop} (hab : Adds p a b) (h : ∀ code, p code → q code) : Adds q a b :=
  ⟨hab.frame, hab.kept, fun d hmem => (hab.added d hmem).imp_right (h d.code)⟩

theorem limit_eq (hab : Adds p a b) : b.limit = a.limit := by
  obtain ⟨_, rfl⟩ := hab.frame
  rfl

theorem report (hlimit : a.limit = 0) (code : String) (position : Position)
    (arguments : List String) (scope : String) :
    (a.report code position arguments scope).1 = .ok () ∧
      Adds (· = code) a (a.report code position arguments scope).2 := by
  let d : Diagnostic := { code, arguments, position, scope }
  by_cases hdropped : a.isHalted = true ∨ a.Drops d
  · rw [report_of_dropped hdropped]
    exact ⟨rfl, .refl a⟩
  · obtain ⟨hhalted, hdrops⟩ := not_or.mp hdropped
    have hopen : a.terminal? = none := by simpa [isHalted] using hhalted
    rw [(report_of_accepted hopen hdrops).trans (if_neg (by omega))]
    refine ⟨rfl, ⟨_, rfl⟩, fun e hmem => Array.mem_push.mpr (.inl hmem), fun e hmem => ?_⟩
    rcases Array.mem_push.mp hmem with hmem | rfl
    · exact .inl hmem
    · exact .inr rfl

end Adds

/-- What the second sink holds of the codes, the first one holds too. -/
structure Covers (codes : List String) (a b : Sink) : Prop where
  limit : a.limit = 0
  limit' : b.limit = 0
  isHalted : b.isHalted = a.isHalted
  disabled : b.disabled = a.disabled
  toggles : b.toggles = a.toggles
  regions : b.regions = a.regions
  ignoredLines : b.ignoredLines = a.ignoredLines
  keys : ∀ d ∈ b.accepted, d.code ∈ codes → ∃ e ∈ a.accepted, e.key = d.key

namespace Covers

theorem refl (hlimit : a.limit = 0) : Covers codes a a :=
  ⟨hlimit, hlimit, rfl, rfl, rfl, rfl, rfl, fun d hmem _ => ⟨d, hmem, rfl⟩⟩

theorem suppresses_eq (hab : Covers codes a b) (code : String) (line : Nat) :
    b.suppresses code line = a.suppresses code line := by
  unfold suppresses
  rw [hab.regions, hab.toggles, hab.disabled]

/-- More diagnostics in the first sink do no harm. -/
theorem adds_left (hab : Covers codes a b) (hac : Adds p a c) : Covers codes c b := by
  obtain ⟨⟨_, rfl⟩, hkept, -⟩ := hac
  refine ⟨hab.limit, hab.limit', hab.isHalted, hab.disabled, hab.toggles, hab.regions,
    hab.ignoredLines, fun d hmem hcode => ?_⟩
  obtain ⟨e, he, hkey⟩ := hab.keys d hmem hcode
  exact ⟨e, hkept e he, hkey⟩

/-- Diagnostics of other codes in the second sink do no harm. -/
theorem adds_right (hab : Covers codes a b) (hbc : Adds (· ∉ codes) b c) : Covers codes a c := by
  obtain ⟨⟨_, rfl⟩, -, hadded⟩ := hbc
  refine ⟨hab.limit, hab.limit', hab.isHalted, hab.disabled, hab.toggles, hab.regions,
    hab.ignoredLines, fun d hmem hcode => ?_⟩
  exact hab.keys d ((hadded d hmem).resolve_right fun hother => hother hcode) hcode

/-- What both sinks are told is in the first one at least if it is in the second. -/
theorem report (hab : Covers codes a b) (code : String) (position : Position)
    (arguments : List String) (scope : String) :
    Covers codes (a.report code position arguments scope).2
      (b.report code position arguments scope).2 := by
  let d : Diagnostic := { code, arguments, position, scope }
  obtain ⟨-, hadds⟩ := Adds.report hab.limit code position arguments scope
  have hleft := hab.adds_left hadds
  by_cases hdropped : b.isHalted = true ∨ b.Drops d
  · rw [report_of_dropped hdropped]
    exact hleft
  · obtain ⟨hhalted, hdrops⟩ := not_or.mp hdropped
    have hopen : b.terminal? = none := by simpa [Sink.isHalted] using hhalted
    have hlimit' := hab.limit'
    rw [(report_of_accepted hopen hdrops).trans (if_neg (by omega))]
    refine ⟨hleft.limit, hleft.limit', hleft.isHalted, hleft.disabled, hleft.toggles, hleft.regions,
      hleft.ignoredLines, fun d' hmem hcode => ?_⟩
    rcases Array.mem_push.mp hmem with hmem | rfl
    · exact hleft.keys d' hmem hcode
    · -- Where the first sink drops the report, that is because it has one of the place already.
      by_cases hrepeated : ∃ e ∈ a.accepted, e.key = d.key
      · obtain ⟨e, he, hkey⟩ := hrepeated
        exact ⟨e, hadds.kept e he, hkey⟩
      · have hopen' : a.terminal? = none := by
          rw [hab.isHalted] at hhalted
          simpa [Sink.isHalted] using hhalted
        have hdrops' : ¬ a.Drops d := by
          rintro (hsuppressed | hrepeats)
          · exact hdrops (.inl ((hab.suppresses_eq _ _).trans hsuppressed))
          · exact hrepeated hrepeats
        have hlimit := hab.limit
        rw [(report_of_accepted hopen' hdrops').trans (if_neg (by omega))]
        exact ⟨d, Array.mem_push.mpr (.inr rfl), rfl⟩

theorem terminate (hab : Covers codes a b) (code : String) (position : Position) (scope : String) :
    Covers codes (a.terminate code position scope) (b.terminate code position scope) := by
  have hhalted : ∀ s : Sink, (s.terminate code position scope).isHalted = true := by
    intro s
    unfold Sink.terminate Sink.isHalted
    split
    next hterminal => simp [hterminal]
    next => rfl
  obtain ⟨_, hframe⟩ := terminate_frame a code position scope
  obtain ⟨_, hframe'⟩ := terminate_frame b code position scope
  have hsame := (hhalted b).trans (hhalted a).symm
  rw [hframe, hframe'] at hsame ⊢
  exact ⟨hab.limit, hab.limit', hsame, hab.disabled, hab.toggles, hab.regions, hab.ignoredLines,
    hab.keys⟩

/-- In the end, too. -/
theorem finish (hab : Covers codes a b) (hcodes : ∀ d ∈ b.terminal?, d.code ∉ codes) {d : Diagnostic}
    (hmem : d ∈ b.finish) (hcode : d.code ∈ codes) : ∃ e ∈ a.finish, e.key = d.key := by
  rcases List.mem_append.mp hmem with hmem | hmem
  · obtain ⟨hmem, hshown⟩ := List.mem_filter.mp hmem
    obtain ⟨e, he, hkey⟩ := hab.keys d (Array.mem_toList_iff.mp hmem) hcode
    have hline : e.position.line = d.position.line := congrArg (·.2.1) hkey
    refine ⟨e, List.mem_append_left _ (List.mem_filter.mpr ⟨Array.mem_toList_iff.mpr he, ?_⟩), hkey⟩
    rw [hline, ← hab.ignoredLines]
    exact hshown
  · exact absurd hcode (hcodes d (Option.mem_toList.mp hmem))

end Covers

end ScriptLint.Sink

/-! ## Scope analysis without a limit

Without a limit on the number of diagnostics no action fails: it changes the scopes and adds
diagnostics to the sink, all of them of the codes of scope analysis. None of these asks for a later
edition.
-/

namespace ScriptLint.Scope.Action

variable {α : Type} {codes : List String} {action : Action α} {s : Session}

/-- An action succeeds unless there is a limit, and to the sink it only adds. -/
theorem Stepwise.unlimited (haction : action.Stepwise) (hlimit : s.sink.limit = 0) :
    (∃ a, (action.run.run s).1 = .ok a) ∧
      s.sink.Adds (fun _ => True) (action.run.run s).2.sink := by
  induction haction generalizing s with
  | pure a => exact ⟨⟨a, rfl⟩, .refl _⟩
  | tracker => exact ⟨⟨s.tracker, rfl⟩, .refl _⟩
  | update => exact ⟨⟨(), rfl⟩, .refl _⟩
  | report code position arguments scope hcode =>
      obtain ⟨houtcome, hadds⟩ := Sink.Adds.report hlimit code position arguments scope
      rw [run_report]
      exact ⟨⟨(), houtcome⟩, hadds.mono fun _ _ => trivial⟩
  | @bind β γ first next hfirst hnext ihfirst ihnext =>
      obtain ⟨⟨a, houtcome⟩, hadds⟩ := ihfirst hlimit
      rw [run_bind]
      rcases hrun : first.run.run s with ⟨outcome, s'⟩
      rw [hrun] at houtcome hadds
      cases houtcome
      obtain ⟨hrest, hadds'⟩ := ihnext a (hadds.limit_eq.trans hlimit)
      exact ⟨hrest, hadds.trans hadds'⟩

/-! ### Codes -/

/-- The codes of remarks on references that are resolved to a binding. -/
abbrev bindingCodes : List String := ["E056", "W003", "E013", "W021", "W022", "W038"]

/-- The codes of remarks on references that are resolved. -/
abbrev resolutionCodes : List String :=
  ["E056", "W003", "E013", "W021", "W022", "W038", "W020", "W117"]

/-- The codes of all reports of scope analysis. -/
abbrev scopeCodes : List String :=
  ["E011", "W004", "W079", "W123", "E056", "W003", "E013", "W021", "W022", "W038", "W020", "W117",
    "W098"]

theorem not_mem_editionCodes_of_scope : ∀ code ∈ scopeCodes, code ∉ editionCodes := by decide

namespace ReportsOnly

theorem mono {codes' : List String} (haction : ReportsOnly codes action) (hcodes : codes ⊆ codes') :
    ReportsOnly codes' action :=
  ⟨fun s d hmem => (haction.mem s d hmem).imp_right fun hcode => hcodes hcode⟩

theorem of_declaration (haction : ReportsOnly declarationCodes action) :
    ReportsOnly scopeCodes action := haction.mono (by decide)

instance (name : String) (kind : BindingKind) (position : Position) :
    ReportsOnly scopeCodes (declare name kind position) := .of_declaration inferInstance

instance (name : String) (position : Position) :
    ReportsOnly scopeCodes (declareBlockFunction name position) := .of_declaration inferInstance

instance (name : String) (position : Position) (distinct : Bool) :
    ReportsOnly scopeCodes (declareParameter name position distinct) :=
  .of_declaration inferInstance

instance (frame : Nat) (b : Binding) (r : Reference) :
    ReportsOnly bindingCodes (resolveTo frame b r) := by
  have hearly (scope : String) : ReportsOnly ["E056", "W003"] (remarkEarly b r scope) := inferInstance
  have hwrite (scope : String) :
      ReportsOnly ["E013", "W021", "W022"] (remarkWrite b r scope) := inferInstance
  have houtside (scope : String) : ReportsOnly ["W038"] (remarkOutside b r scope) := inferInstance
  have (scope : String) := (hearly scope).mono (show _ ⊆ bindingCodes by decide)
  have (scope : String) := (hwrite scope).mono (show _ ⊆ bindingCodes by decide)
  have (scope : String) := (houtside scope).mono (show _ ⊆ bindingCodes by decide)
  unfold resolveTo
  infer_instance

instance (frame id : Nat) : ReportsOnly resolutionCodes (resolve frame id) := by
  have hbinding (b : Binding) (r : Reference) : ReportsOnly bindingCodes (resolveTo frame b r) :=
    inferInstance
  have hglobal (r : Reference) : ReportsOnly ["W020", "W117"] (resolveGlobal r) := inferInstance
  have (b : Binding) (r : Reference) := (hbinding b r).mono (show _ ⊆ resolutionCodes by decide)
  have (r : Reference) := (hglobal r).mono (show _ ⊆ resolutionCodes by decide)
  unfold resolve
  refine .bind inferInstance fun t => ?_
  dsimp only
  split <;> infer_instance

instance (frame : Nat) : ReportsOnly resolutionCodes (resolveAll frame) := by
  unfold resolveAll
  infer_instance

instance : ReportsOnly scopeCodes exitScope := by
  have hunused (frame : Nat) : ReportsOnly ["W098"] (reportUnused frame) := inferInstance
  have hresolve (frame : Nat) : ReportsOnly resolutionCodes (resolveAll frame) := inferInstance
  have (frame : Nat) := (hunused frame).mono (show _ ⊆ scopeCodes by decide)
  have (frame : Nat) := (hresolve frame).mono (show _ ⊆ scopeCodes by decide)
  unfold exitScope
  refine .bind inferInstance fun t => ?_
  split <;> infer_instance

instance : ReportsOnly scopeCodes finish := by
  unfold finish
  infer_instance

end ReportsOnly

/-- Without a limit the action succeeds, and it adds no diagnostic that asks for a later edition. -/
class Ageless (action : Action PUnit) : Prop where
  run : ∀ {s : Session}, s.sink.limit = 0 → (action.run.run s).1 = .ok () ∧
    s.sink.Adds (· ∉ editionCodes) (action.run.run s).2.sink

theorem Ageless.of_codes {action : Action PUnit} (haction : action.Stepwise)
    (hreports : ReportsOnly codes action) (hcodes : ∀ code ∈ codes, code ∉ editionCodes) :
    Ageless action := by
  refine ⟨fun {s} hlimit => ?_⟩
  obtain ⟨⟨_, houtcome⟩, hadds⟩ := haction.unlimited hlimit
  exact ⟨houtcome, hadds.frame, hadds.kept, fun d hmem =>
    (hreports.mem s d hmem).imp_right (hcodes d.code)⟩

instance {action : Action PUnit} [haction : action.Stepwise]
    [hreports : ReportsOnly scopeCodes action] : Ageless action :=
  .of_codes haction hreports not_mem_editionCodes_of_scope

/-- What holds of the tracker whenever an action succeeds holds if it succeeds. -/
theorem Ensures.of_ok {post : α → Tracker → Prop} (haction : action.Ensures s.tracker post) {a : α}
    (hok : (action.run.run s).1 = .ok a) : post a (action.run.run s).2.tracker :=
  haction s.sink a _ (Prod.ext hok rfl)

end ScriptLint.Scope.Action
