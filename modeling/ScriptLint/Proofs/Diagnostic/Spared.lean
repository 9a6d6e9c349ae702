import ScriptLint.Proofs.Diagnostic.History
import ScriptLint.Proofs.Lexing.Issue
import ScriptLint.Text.Basic

/-! # Sinks with and without some codes

A sink that took the same reports except those of some codes has the same diagnostics with these
codes left out. Where reports are left out there may be no limit, which they would count towards.
-/

namespace ScriptLint.Sink

variable {c : Cursor} {codes : List String} {a b : Sink}

/-- The sink with the accepted diagnostics of some codes left out. -/
def silence (codes : List String) (a : Sink) : Sink :=
  { a with accepted := a.accepted.filter (·.code ∉ codes) }

@[simp]
theorem silence_nil (a : Sink) : a.silence [] = a := by
  have hall : a.accepted.filter (·.code ∉ []) = a.accepted :=
    Array.filter_eq_self.mpr fun d _ => by simp
  rw [silence, hall]

/-- All diagnostics are about places behind the cursor, and what the terminal one tells of the
source fits its place and the number of lines that are to come. -/
structure Anchored (c : Cursor) (a : Sink) : Prop where
  totalLines : a.totalLines = Text.lineCount c.rest
  accepted : ∀ d ∈ a.accepted, c.Passes d.position ∧ d.scanned? = none
  terminal : ∀ d ∈ a.terminal?,
    c.Passes d.position ∧ d.scanned? = some (a.scannedPercent d.position)

theorem anchored_start (c : Cursor) (limit : Nat) (disabled : Text.NameSet) :
    (start limit (Text.lineCount c.rest) disabled).Anchored c where
  totalLines := Nat.max_eq_left (Nat.le_add_left 1 (Text.lineEnds c.rest))
  accepted := by simp [start]
  terminal := by simp [start]

namespace Anchored

theorem push (ha : a.Anchored c) {d : Diagnostic} (hposition : c.Passes d.position)
    (hscanned : d.scanned? = none) : { a with accepted := a.accepted.push d }.Anchored c := by
  refine ⟨ha.totalLines, fun e hmem => ?_, ha.terminal⟩
  rcases Array.mem_push.mp hmem with hmem | rfl
  · exact ha.accepted e hmem
  · exact ⟨hposition, hscanned⟩

theorem terminate (ha : a.Anchored c) (code : String) {position : Position}
    (hposition : c.Passes position) (scope : String) :
    (a.terminate code position scope).Anchored c := by
  unfold Sink.terminate
  split
  · exact ha
  · refine ⟨ha.totalLines, ha.accepted, fun d hmem => ?_⟩
    cases hmem
    exact ⟨hposition, rfl⟩

theorem report (ha : a.Anchored c) (code : String) {position : Position}
    (hposition : c.Passes position) (arguments : List String) (scope : String) :
    (a.report code position arguments scope).2.Anchored c := by
  unfold Sink.report
  dsimp only
  have hpush := ha.push (d := { code, arguments, position, scope }) hposition rfl
  split
  · exact ha
  · split
    · exact hpush.terminate _ hposition scope
    · exact hpush

end Anchored

/-- The second sink took the same reports as the first but for those of some codes. -/
structure Spared (c : Cursor) (codes : List String) (a b : Sink) : Prop where
  eq : b = a.silence codes
  unlimited : codes = [] ∨ a.limit = 0
  anchored : a.Anchored c

namespace Spared

theorem terminate (hab : Spared c codes a b) (reason : String) {position : Position}
    (hposition : c.Passes position) (scope : String) :
    Spared c codes (a.terminate reason position scope) (b.terminate reason position scope) := by
  obtain ⟨rfl, hunlimited, hanchored⟩ := hab
  refine ⟨?_, ?_, hanchored.terminate reason hposition scope⟩
  · unfold Sink.terminate silence scannedPercent
    dsimp only
    split <;> rfl
  · unfold Sink.terminate
    split <;> exact hunlimited

/-- A report of another code is dropped by both sinks or by none. -/
theorem drops_silence {d : Diagnostic} (hd : d.code ∉ codes) :
    (a.silence codes).Drops d ↔ a.Drops d := by
  refine or_congr_right (exists_mem_filter_iff fun e hcode => ?_)
  simpa [hcode] using hd

theorem silence_push {d : Diagnostic} (hd : d.code ∉ codes) :
    { a with accepted := a.accepted.push d }.silence codes =
      { a.silence codes with accepted := (a.silence codes).accepted.push d } := by
  simp [silence, hd]

theorem report (hab : Spared c codes a b) {code : String} (hcode : code ∉ codes)
    {position : Position} (hposition : c.Passes position) (arguments : List String)
    (scope : String) :
    (b.report code position arguments scope).1 = (a.report code position arguments scope).1 ∧
      Spared c codes (a.report code position arguments scope).2
        (b.report code position arguments scope).2 := by
  have hanchored := hab.anchored.report code hposition arguments scope
  obtain ⟨rfl, hunlimited, -⟩ := hab
  rcases hunlimited with rfl | hunlimited
  · rw [silence_nil]
    exact ⟨rfl, (silence_nil _).symm, .inl rfl, hanchored⟩
  let d : Diagnostic := { code, arguments, position, scope }
  have hd : d.code ∉ codes := hcode
  by_cases hdropped : a.isHalted = true ∨ a.Drops d
  · have hdropped' : (a.silence codes).isHalted = true ∨ (a.silence codes).Drops d :=
      hdropped.imp_right (drops_silence hd).mpr
    rw [report_of_dropped hdropped] at hanchored ⊢
    rw [report_of_dropped hdropped']
    exact ⟨rfl, rfl, .inr hunlimited, hanchored⟩
  · obtain ⟨hhalted, hdrops⟩ := not_or.mp hdropped
    have hopen : a.terminal? = none := by simpa [isHalted] using hhalted
    have hdrops' : ¬ (a.silence codes).Drops d := mt (drops_silence hd).mp hdrops
    have hresult := (report_of_accepted hopen hdrops).trans (if_neg (by omega))
    have hresult' := (report_of_accepted (s := a.silence codes) hopen hdrops').trans
      (if_neg (by simp [silence, hunlimited]))
    rw [hresult] at hanchored ⊢
    rw [hresult']
    exact ⟨rfl, (silence_push hd).symm, .inr hunlimited, hanchored⟩

/-- A report of one of the codes is one that only the first sink took. -/
theorem report_left (hab : Spared c codes a b) {code : String} (hcode : code ∈ codes)
    {position : Position} (hposition : c.Passes position) (arguments : List String)
    (scope : String) :
    (a.report code position arguments scope).1 = .ok () ∧
      Spared c codes (a.report code position arguments scope).2 b := by
  have hanchored := hab.anchored.report code hposition arguments scope
  obtain ⟨rfl, hunlimited, -⟩ := hab
  have hunlimited : a.limit = 0 := hunlimited.resolve_left (List.ne_nil_of_mem hcode)
  let d : Diagnostic := { code, arguments, position, scope }
  by_cases hdropped : a.isHalted = true ∨ a.Drops d
  · rw [report_of_dropped hdropped] at hanchored ⊢
    exact ⟨rfl, rfl, .inr hunlimited, hanchored⟩
  · obtain ⟨hhalted, hdrops⟩ := not_or.mp hdropped
    have hopen : a.terminal? = none := by simpa [isHalted] using hhalted
    have hresult := (report_of_accepted hopen hdrops).trans (if_neg (by omega))
    rw [hresult] at hanchored ⊢
    refine ⟨rfl, ?_, .inr hunlimited, hanchored⟩
    simp [silence, hcode]

end Spared

/-- What is left in the end is the same but for the codes, if no terminal diagnostic has one. -/
theorem finish_silence (codes : List String) (hcodes : ∀ d ∈ a.terminal?, d.code ∉ codes) :
    (a.silence codes).finish = a.finish.filter (·.code ∉ codes) := by
  have hterminal : a.terminal?.toList.filter (·.code ∉ codes) = a.terminal?.toList :=
    List.filter_eq_self.mpr fun d hmem => by simpa using hcodes d (Option.mem_toList.mp hmem)
  unfold finish
  rw [List.filter_append, hterminal, List.filter_filter]
  simp only [silence, Array.toList_filter, List.filter_filter, Bool.and_comm]

end ScriptLint.Sink
