import ScriptLint.Proofs.Nesting.Statement
import ScriptLint.Proofs.Reading.Inside
import ScriptLint.Proofs.Reading.TooDeep
import ScriptLint.Proofs.Reading.Unspoken

/-! # Jumps to labels

A `continue` with a label is checked against the labels around it in its function, and what matters
about a label is whether it is one of a loop. That is decided when the label is read, by the token
behind its colon. So of several labels in front of a loop only the last one counts as its label.
-/

set_option synthInstance.maxSize 4096

namespace ScriptLint

namespace Token

variable {c : Cursor} {t : Token}

/-- No punctuator begins like a name. -/
theorem scan_punctuator_start (hlexeme : (scan c).lexeme = .punctuator) {ch : Char} {cs : List Char}
    (hraw : (scan c).raw = String.ofList (ch :: cs)) : Character.isIdStart ch = false := by
  unfold scan at hlexeme hraw
  split at hlexeme
  · cases hlexeme
  next x hpeek =>
    rw [hpeek] at hraw
    dsimp only at hraw
    split at hlexeme
    · cases hlexeme
    split at hlexeme
    · cases hlexeme
    split at hlexeme
    · rcases Numeral.lexeme_glue_read c with ⟨value, hvalue⟩ | ⟨value, hvalue⟩
      · cases hvalue.symm.trans hlexeme
      · cases hvalue.symm.trans hlexeme
    split at hlexeme
    · cases hlexeme
    split at hlexeme
    · change NameScan.lexeme _ = _ at hlexeme
      unfold NameScan.lexeme at hlexeme
      split at hlexeme
      · cases hlexeme
      · split at hlexeme <;> cases hlexeme
    next hstring htemplate hnumber hprivate hname =>
      rw [if_neg hstring, if_neg htemplate, if_neg hnumber, if_neg hprivate, if_neg hname] at hraw
      obtain ⟨hstart, ⟨y, ys, hcovers⟩, -⟩ := scanPunctuator_begins hpeek
      obtain ⟨rfl, -⟩ := List.cons.inj (String.ofList_injective (hcovers.raw_eq.symm.trans hraw))
      obtain rfl : y = x := by
        have hrest := hcovers.reads.rest_eq
        rw [hstart] at hrest
        simpa [Cursor.peek?, hrest] using hpeek
      exact Bool.eq_false_iff.mpr (not_or.mp hname).2

theorem LeadsTo.punctuator_start (hleads : (Token.next c).LeadsTo t)
    (hlexeme : t.lexeme = .punctuator) {ch : Char} {cs : List Char}
    (hraw : t.raw = String.ofList (ch :: cs)) : Character.isIdStart ch = false := by
  cases hleads with
  | refl => exact scan_punctuator_start hlexeme hraw
  | next => exact scan_punctuator_start hlexeme hraw
  | regexp => cases hlexeme
  | @template t' =>
      obtain ⟨text?, h | h⟩ := t'.rescanTemplate_lexeme
      · cases h.symm.trans hlexeme
      · cases h.symm.trans hlexeme

end Token

namespace Reading

open Scope (Label)

variable {s s' s₀ s₁ : State} {fuel fuel₁ fuel₂ : Nat} {labels inner rest : List Label}
variable {label last : Label} {name : String}

/-! ## Loops -/

/-- The forms of loops. -/
def loopForms : List StatementForm := [.forWord, .whileWord, .doWord]

theorem table_loopForms : ∀ symbol ∈ Symbol.table, ∀ form ∈ symbol.statement?,
    form ∈ loopForms → symbol.id ∈ ["for", "while", "do"] := by
  decide

theorem startsWith_of_atLoop (h : s.atLoop = true) :
    ∃ form ∈ loopForms, s.StartsWith (.form form) := by
  obtain ⟨word, hword, hkeyword⟩ := List.any_eq_true.mp h
  unfold Token.isKeyword at hkeyword
  split at hkeyword
  next spelled hlexeme =>
    have hsymbol : Symbol.ofToken s.lookahead = (Symbol.ofSpelling? word).getD .unknown := by
      rw [Symbol.ofToken, hlexeme, eq_of_beq hkeyword]
    have hstart := run_statementStart (s := s) fun name hname => by
      cases hlexeme.symm.trans hname
    rw [hsymbol] at hstart
    have hforms : ∀ word ∈ ["for", "while", "do"], ∃ form ∈ loopForms,
        ((Symbol.ofSpelling? word).getD .unknown).statement? = some form := by decide +kernel
    obtain ⟨form, hform, heq⟩ := hforms word hword
    exact ⟨form, hform, by rw [State.StartsWith, hstart, heq]⟩
  · cases hkeyword

/-- A loop comes next where the next token says so. -/
theorem atLoop_iff (hs : s.Lexed) :
    s.atLoop = true ↔ ∃ form ∈ loopForms, s.StartsWith (.form form) := by
  refine ⟨startsWith_of_atLoop, ?_⟩
  rintro ⟨form, hform, hstart⟩
  have hsymbol : (Symbol.ofToken s.lookahead).statement? = some form :=
    statementStart_leads s _ s hstart.run_eq
  have hspelled (h : ((Symbol.ofSpelling? s.lookahead.raw).getD .unknown).statement? = some form) :
      s.lookahead.raw ∈ ["for", "while", "do"] := by
    rcases Symbol.mem_table_or_unknown s.lookahead.raw with ⟨hmem, hid⟩ | hunknown
    · rw [← hid]
      exact table_loopForms _ hmem form h hform
    · rw [hunknown] at h
      cases h
  unfold Symbol.ofToken at hsymbol
  split at hsymbol
  case h_13 hlexeme =>
    exact List.any_eq_true.mpr ⟨_, hspelled hsymbol, by simp [Token.isKeyword, hlexeme]⟩
  case h_14 hlexeme =>
    obtain ⟨c, hleads⟩ := hs
    have hwords : ∀ word ∈ ["for", "while", "do"], word.toList.head?.any Character.isIdStart := by
      decide
    obtain ⟨ch, hhead, hstart⟩ := (Option.any_eq_true _ _).mp (hwords _ (hspelled hsymbol))
    obtain ⟨cs, hchars⟩ := List.head?_eq_some_iff.mp hhead
    have hraw : s.lookahead.raw = String.ofList (ch :: cs) := by rw [← hchars, String.ofList_toList]
    rw [hleads.punctuator_start hlexeme hraw] at hstart
    cases hstart
  all_goals cases hsymbol

/-- What has a label is no loop itself. -/
theorem atLoop_of_label (h : s.StartsWith .label) : s.atLoop = false := by
  refine Bool.eq_false_iff.mpr fun hloop => ?_
  obtain ⟨form, -, hstart⟩ := startsWith_of_atLoop hloop
  rw [State.StartsWith, h] at hstart
  cases hstart

/-! ## Reading a jump -/

theorem run_bind_congr {α β : Type} {first : Reading α} {next next' : α → Reading β}
    (h : ∀ a s', first.run.run s = (.ok a, s') → (next a).run.run s' = (next' a).run.run s') :
    (first >>= next).run.run s = (first >>= next').run.run s := by
  rw [run_bind, run_bind]
  rcases hrun : first.run.run s with ⟨stop | a, s'⟩
  · rfl
  · exact h a s' hrun

theorem run_nested_congr {α : Type} {step step' : Reading α}
    (h : step.run.run { s with depth := s.depth + 1 } =
      step'.run.run { s with depth := s.depth + 1 }) :
    (nested step).run.run s = (nested step').run.run s := by
  refine run_bind_congr ?_
  rintro _ _ ⟨⟩
  refine run_bind_congr ?_
  rintro _ _ ⟨⟩
  dsimp only
  split
  · rfl
  · rw [run_bind, run_bind, h]

/-- A `continue` with a label, where something is remarked in place of the check. -/
def continueTo (remark : Position → Reading Unit) (inList : Bool) : Reading Statement :=
  nested do
    let position := (← token).position
    advance
    advance
    remark position
    endJump "continue" inList

theorem isRegular_jump : Halt.IsRegular "W052" := by decide

/-- What is said of a `continue` to a label. -/
def labelRemark (label : Label) (position : Position) : Reading Unit :=
  if label.iteration then pure () else report "W052" position ["continue"] isRegular_jump

theorem checkLabel_run (hlabel : s.labels.find? (·.name == name) = some label)
    (position : Position) :
    (checkLabel "continue" name position).run.run s = (labelRemark label position).run.run s := by
  have hfound : s.session.tracker.label? name = some label := hlabel
  have htracker : tracker.run.run s = (.ok s.session.tracker, s) := rfl
  unfold checkLabel labelRemark
  rw [run_bind, htracker]
  dsimp only
  rw [hfound]
  dsimp only
  rw [beq_self_eq_true, Bool.and_true]
  cases label.iteration <;> rfl

theorem State.name_of_jumpLabel? (h : s.jumpLabel? = some name) :
    (s.behind.lookahead.isIdentifier && !s.behind.lookahead.flags.newlineBefore) = true ∧
      s.behind.lookahead.name = name := by
  change (if _ then _ else _) = _ at h
  split at h
  next hname => exact ⟨hname, Option.some.inj h⟩
  next => cases h

/-- The label of a jump is the innermost one of the name, and all that matters about it is whether
it is one of a loop. -/
theorem continue_eq (hs : s.Settled) (hstart : s.StartsWith (.form .continueWord))
    (hjump : s.jumpLabel? = some name) (hlabel : s.labels.find? (·.name == name) = some label)
    (inList : Bool) : ((productions (fuel + 1)).statement inList).run.run s =
      (continueTo (labelRemark label) inList).run.run s := by
  let deeper : State := { s with depth := s.depth + 1 }
  have hdeeper : deeper.StartsWith (.form .continueWord) := hstart.of_lookahead rfl
  have hkeeps : KeepsLabels advance := inferInstance
  obtain ⟨hidentifier, hname⟩ := State.name_of_jumpLabel? hjump
  rw [productions_statement, readStatement, continueTo]
  refine run_nested_congr ?_
  rw [run_bind, hdeeper.run_eq]
  dsimp only [statementOf]
  unfold breakStatement
  refine run_bind_congr ?_
  rintro _ _ ⟨⟩
  refine run_bind_congr fun _ s₁ hword => ?_
  obtain ⟨hs₁, hlabels₁⟩ := hkeeps.leads (hs.deeper _) _ s₁ hword
  have hlookahead : s₁.lookahead = s.behind.lookahead := (advance_leads deeper _ s₁ hword).lookahead
  rw [run_bind, run_token]
  dsimp only
  rw [hlookahead, if_pos hidentifier, hname]
  refine run_bind_congr fun _ s₂ hadvance => ?_
  obtain ⟨-, hlabels₂⟩ := hkeeps.leads hs₁ _ s₂ hadvance
  have hlabel₂ : s₂.labels.find? (·.name == name) = some label := by
    rw [hlabels₂, hlabels₁]
    exact hlabel
  rw [run_bind, checkLabel_run hlabel₂, ← run_bind]

/-! ## What is said of a jump -/

theorem avoids_tokens : ∀ code ∈ tokenCodes, code ∉ ["W090", "W052"] := by decide

instance (inList : Bool) : Avoids ["W090", "W052"] (endJump "continue" inList) := by
  have hadvance := Avoids.advance avoids_tokens
  have hreport {code : String} (hcode : code ∉ ["W090", "W052"]) (position : Position)
      (arguments : List String) (hregular : Halt.IsRegular code) :
      Avoids ["W090", "W052"] (report code position arguments hregular) :=
    .report hcode position arguments hregular
  have hmissing := @hreport "E058" (by decide)
  have hoptional := @hreport "W033" (by decide)
  have hunreached := @hreport "W027" (by decide)
  unfold endJump semicolon endStatement checkReached atPunctuator
  infer_instance

/-- Of a jump to the label of a loop nothing is said. -/
theorem continueTo_without (hs : s.Lexed) (hloop : label.iteration = true) (inList : Bool) :
    s.session.sink.Without ["W090", "W052"]
      (s.after (continueTo (labelRemark label) inList)).session.sink := by
  have hadvance := Avoids.advance avoids_tokens
  have hremark (position : Position) : Avoids ["W090", "W052"] (labelRemark label position) := by
    rw [labelRemark, if_pos hloop]
    infer_instance
  have hcontinue : Avoids ["W090", "W052"] (continueTo (labelRemark label) inList) := by
    unfold continueTo
    infer_instance
  exact hcontinue.without hs

/-- A jump to another label is told of, once its label is consumed. -/
theorem continueTo_tells (hs : s.Settled) (hother : label.iteration = false)
    (hdepth : s.depth < s.options.maxDepth)
    (hadvance : (advance >>= fun _ => advance).run.run { s with depth := s.depth + 1 } =
      (.ok (), s'))
    (hshown : s'.session.sink.suppresses "W052" s.lookahead.position.line = false) (inList : Bool) :
    (s.after (continueTo (labelRemark label) inList)).session.sink.Tells "W052"
      s.lookahead.position.place := by
  have hkeeps : KeepsLabels (advance >>= fun _ => advance) := inferInstance
  obtain ⟨hs', -⟩ := hkeeps.leads (hs.deeper _) _ s' hadvance
  have hopen := hs'.records.isHalted_eq_false
  have hbody : continueTo (labelRemark label) inList = nested (token >>= fun t =>
      (advance >>= fun _ => advance) >>= fun _ => labelRemark label t.position >>= fun _ =>
        endJump "continue" inList) := by
    unfold continueTo
    simp only [bind_assoc]
  have hgets : GetsTo (continueTo (labelRemark label) inList) s
      (labelRemark label s.lookahead.position) s' := by
    rw [hbody]
    refine .nested hdepth (.bind rfl (.bind hadvance (.here fun _ => ?_)))
    exact .of_steady (n := 0) inferInstance
  refine hgets.tells ?_
  rw [labelRemark, if_neg (by simp [hother])]
  exact report_tells hopen hshown ["continue"]

/-! ## Labels in front of a statement -/

/-- Labels stand in front of the statement that begins at the second state, one behind the other
from the first state on. The last one is given first, and then those before it from the inside
out. -/
inductive Labelled : Nat → State → Label → List Label → Nat → State → Prop
  | last {fuel : Nat} {s s' : State} {label : Label} (hdepth : s.depth < s.options.maxDepth)
    (hpart : Part (productions fuel) { s with depth := s.depth + 1 } (some label) s') :
    Labelled (fuel + 1) s label [] fuel s'
  | before {fuel fuel' : Nat} {s s' s'' : State} {label last : Label} {rest : List Label}
    (hdepth : s.depth < s.options.maxDepth)
    (hpart : Part (productions fuel) { s with depth := s.depth + 1 } (some label) s')
    (hrest : Labelled fuel s' last rest fuel' s'') :
    Labelled (fuel + 1) s last (rest ++ [label]) fuel' s''

theorem Part.iteration_eq {self : Productions} (h : Part self s (some label) s') :
    label.iteration = s'.atLoop := by
  cases h
  rfl

theorem Part.startsWith {self : Productions} (h : Part self s (some label) s') :
    s.StartsWith .label := by
  cases h with
  | label hstart hhead => exact hstart

namespace Labelled

theorem inside (h : Labelled fuel s last rest fuel₁ s') :
    Inside fuel s (last :: rest) fuel₁ s' := by
  induction h with
  | last hdepth hpart => exact .part hdepth hpart (.self _ _)
  | before hdepth hpart hrest ih => exact .part hdepth hpart ih

theorem startsWith (h : Labelled fuel s last rest fuel₁ s') : s.StartsWith .label := by
  cases h with
  | last hdepth hpart | before hdepth hpart => exact hpart.startsWith.of_lookahead rfl

theorem iteration_eq (h : Labelled fuel s last rest fuel₁ s') : last.iteration = s'.atLoop := by
  induction h with
  | last hdepth hpart => exact hpart.iteration_eq
  | before hdepth hpart hrest ih => exact ih

/-- A label in front of another one is not taken for one of a loop, whatever the labels are for. -/
theorem iteration_rest (h : Labelled fuel s last rest fuel₁ s') :
    ∀ label ∈ rest, label.iteration = false := by
  induction h with
  | last => nofun
  | before hdepth hpart hrest ih =>
      intro label hmem
      rcases List.mem_append.mp hmem with hmem | hmem
      · exact ih label hmem
      · obtain rfl := List.mem_singleton.mp hmem
        rw [hpart.iteration_eq, atLoop_of_label hrest.startsWith]

end Labelled

/-- A `continue` to one of the labels in front of a statement finds the last one of the name. -/
theorem find?_labels (outer : List Label) (hinner : ∀ l ∈ inner, l.name ≠ name)
    (hname : ∃ l ∈ last :: rest, l.name = name) :
    ∃ label, (inner ++ (last :: rest) ++ outer).find? (·.name == name) = some label ∧
      (last.name = name ∧ label = last ∨ last.name ≠ name ∧ label ∈ rest) := by
  have hnone : inner.find? (·.name == name) = none :=
    List.find?_eq_none.mpr fun l hmem => by simpa using hinner l hmem
  rw [List.append_assoc, List.find?_append, hnone, Option.none_or, List.find?_append]
  by_cases hlast : last.name = name
  · exact ⟨last, by simp [hlast], .inl ⟨hlast, rfl⟩⟩
  · obtain ⟨l, hmem, hl⟩ := hname
    have hmem : l ∈ rest := (List.mem_cons.mp hmem).resolve_left <| by
      rintro rfl
      exact hlast hl
    have hfound : (rest.find? (·.name == name)).isSome :=
      List.find?_isSome.mpr ⟨l, hmem, by simpa using hl⟩
    obtain ⟨label, hlabel⟩ := Option.isSome_iff_exists.mp hfound
    exact ⟨label, by simp [hlast, hlabel], .inr ⟨hlast, List.mem_of_find?_eq_some hlabel⟩⟩

/-- With labels in front of a statement, a `continue` inside of it to one of them passes without a
word if that is the last one and the statement is a loop. Otherwise it is told of, once its label is
consumed, if that line shows it. -/
theorem continue_told (hs : s₀.Settled) (hlabelled : Labelled fuel s₀ last rest fuel₁ s₁)
    (hinside : Inside fuel₁ s₁ inner (fuel₂ + 1) s) (hstart : s.StartsWith (.form .continueWord))
    (hjump : s.jumpLabel? = some name) (hinner : ∀ l ∈ inner, l.name ≠ name)
    (hname : ∃ l ∈ last :: rest, l.name = name) :
    (last.name = name ∧ (∃ form ∈ loopForms, s₁.StartsWith (.form form)) → ∀ inList,
      s.session.sink.Without ["W090", "W052"]
        (s.after ((productions (fuel₂ + 1)).statement inList)).session.sink) ∧
    (¬ (last.name = name ∧ ∃ form ∈ loopForms, s₁.StartsWith (.form form)) →
      s.depth < s.options.maxDepth → ∀ s', (advance >>= fun _ => advance).run.run
        { s with depth := s.depth + 1 } = (.ok (), s') →
      s'.session.sink.suppresses "W052" s.lookahead.position.line = false → ∀ inList,
      (s₀.after ((productions fuel).statement inList)).session.sink.Tells "W052"
        s.lookahead.position.place) := by
  obtain ⟨hs₁, -⟩ := hlabelled.inside.labels_eq hs
  have hboth := hlabelled.inside.trans hinside
  obtain ⟨hs', hlabels⟩ := hboth.labels_eq hs
  obtain ⟨label, hfind, hlabel⟩ := find?_labels s₀.labels hinner hname
  rw [← hlabels] at hfind
  have hiteration : label.iteration = true ↔
      last.name = name ∧ ∃ form ∈ loopForms, s₁.StartsWith (.form form) := by
    rw [← atLoop_iff hs₁.lexed]
    rcases hlabel with ⟨hlast, rfl⟩ | ⟨hlast, hmem⟩
    · rw [hlabelled.iteration_eq, and_iff_right hlast]
    · simp [hlabelled.iteration_rest label hmem, hlast]
  have hrun (inList : Bool) : ((productions (fuel₂ + 1)).statement inList).run.run s =
      (continueTo (labelRemark label) inList).run.run s :=
    continue_eq hs' hstart hjump hfind inList
  rw [← hiteration]
  refine ⟨fun hloop inList => ?_, fun hother hdepth s' hadvance hshown inList => ?_⟩
  · rw [State.after, hrun]
    exact continueTo_without hs'.lexed hloop inList
  · obtain ⟨inList', hgets⟩ := hboth.getsTo inList
    refine hgets.tells ?_
    rw [hrun]
    exact continueTo_tells hs' (Bool.eq_false_iff.mpr hother) hdepth hadvance hshown inList'

/-- The first of two labels in front of a loop, under a condition in the loop. -/
theorem continue_told_first :
    let deeper (s : State) : State := { s with depth := s.depth + 1 }
    let s₀ := Analysis.startState "a:b:for(;;)if(c)continue a;" {} {}
    let s₁ := (deeper s₀).after labelHead
    let s₂ := (deeper s₁).after labelHead
    let s₃ := (deeper s₂).after (forHead (productions 6))
    let s := (deeper s₃).after (ifHead (productions 5))
    let first := labelBetween (deeper s₀) s₁
    let last := labelBetween (deeper s₁) s₂
    Labelled 9 s₀ last [first] 7 s₂ ∧ Inside 7 s₂ [] 5 s ∧ s.StartsWith (.form .continueWord) ∧
      s.jumpLabel? = some "a" ∧ first.name = "a" ∧ last.name = "b" ∧
      s.lookahead.position.place = (1, 17) ∧
      (s₀.after ((productions 9).statement true)).session.sink.Tells "W052"
        s.lookahead.position.place := by
  intro deeper s₀ s₁ s₂ s₃ s first last
  have hlabel₀ : (labelHead.run.run (deeper s₀)).1 = .ok () := by decide +kernel
  have hlabel₁ : (labelHead.run.run (deeper s₁)).1 = .ok () := by decide +kernel
  have hlabelled : Labelled 9 s₀ last [first] 7 s₂ :=
    .before (by decide) (.label (by decide +kernel) (State.run_eq_after hlabel₀))
      (.last (by decide +kernel) (.label (by decide +kernel) (State.run_eq_after hlabel₁)))
  have hfor : ((forHead (productions 6)).run.run (deeper s₂)).1 = .ok none := by decide +kernel
  have hif : ((ifHead (productions 5)).run.run (deeper s₃)).1 = .ok () := by decide +kernel
  have hbody : Part (productions 6) (deeper s₂) none s₃ :=
    .forBody (by decide +kernel) (State.run_eq_after hfor)
  have hbranch : Part (productions 5) (deeper s₃) none s :=
    .thenBranch (by decide +kernel) (State.run_eq_after hif)
  have hinside : Inside 7 s₂ [] 5 s :=
    .part (by decide +kernel) hbody (.part (by decide +kernel) hbranch (.self _ _))
  have hstart : s.StartsWith (.form .continueWord) := by decide +kernel
  have hjump : s.jumpLabel? = some "a" := by decide +kernel
  have hfirst : first.name = "a" := by decide +kernel
  have hlast : last.name = "b" := by decide +kernel
  have hplace : s.lookahead.position.place = (1, 17) := by decide +kernel
  have hdepth : s.depth < s.options.maxDepth := by decide +kernel
  let s' := (deeper s).after (advance >>= fun _ => advance)
  have hadvance : ((advance >>= fun _ => advance).run.run (deeper s)).1 = .ok () := by
    decide +kernel
  have hconsumed : (advance >>= fun _ => advance).run.run (deeper s) = (.ok (), s') :=
    State.run_eq_after hadvance
  have hshown : s'.session.sink.suppresses "W052" s.lookahead.position.line = false := by
    decide +kernel
  have htold := (continue_told (Analysis.settled_startState _ _ _) hlabelled hinside hstart hjump
    nofun ⟨first, List.mem_cons_of_mem _ List.mem_cons_self, hfirst⟩).2
  have hother : ¬ (last.name = "a" ∧ ∃ form ∈ loopForms, s₂.StartsWith (.form form)) := by
    rintro ⟨h, -⟩
    exact absurd (hlast.symm.trans h) (by decide)
  exact ⟨hlabelled, hinside, hstart, hjump, hfirst, hlast, hplace,
    htold hother hdepth s' hconsumed hshown true⟩

/-- Of two labels in front of a loop, the last one is its label. -/
example :
    (Analysis.ofSource "a:b:for(;;)\x7bcontinue b;\x7d" {} {}).diagnostics.map (·.code) = ["W028"] ∧
    (Analysis.ofSource "a:b:for(;;)\x7bcontinue a;\x7d" {} {}).diagnostics.map (·.code) =
      ["W028", "W052"] := by
  decide +kernel

end Reading

end ScriptLint
