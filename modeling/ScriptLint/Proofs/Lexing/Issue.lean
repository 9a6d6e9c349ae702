import ScriptLint.Proofs.Lexing.Run

/-! # What comes with a token

The problems of a token and the comments in front of it stand at places that the lexer comes past,
and only so many kinds of problems are noticed while a token is read.
-/

namespace ScriptLint

namespace Cursor

/-- Reading on from the cursor comes past the position. -/
def Passes (c : Cursor) (p : Position) : Prop := ∃ d, c.Reaches d ∧ d.position = p

variable {c d : Cursor} {p : Position}

theorem Reaches.passes (hcd : c.Reaches d) : c.Passes d.position := ⟨d, hcd, rfl⟩

theorem Passes.of_reaches (hcd : c.Reaches d) (hp : d.Passes p) : c.Passes p := by
  obtain ⟨e, hde, rfl⟩ := hp
  exact ⟨e, hcd.trans hde, rfl⟩

end Cursor

open Cursor

namespace LexicalIssue

/-- The codes of the problems that are noticed while a token is read, each with whether it makes
reading on senseless. -/
def kinds : List (String × Bool) :=
  [("E015", false), ("E016", false), ("E017", true), ("E024", false), ("E052", true),
    ("E067", false), ("W008", false), ("W043", false), ("W044", false), ("W047", false),
    ("W112", false), ("W119", false), ("W125", false)]

/-- Those that a token has by itself; the others stand in front of it. -/
def spellingKinds : List (String × Bool) :=
  [("E015", false), ("E016", false), ("E024", false), ("E052", true), ("E067", false),
    ("W008", false), ("W043", false), ("W044", false), ("W047", false), ("W112", false),
    ("W119", false)]

theorem spellingKinds_subset : spellingKinds ⊆ kinds := by decide

/-- A problem of one of some kinds, at a place behind the cursor. -/
structure Found (among : List (String × Bool)) (c : Cursor) (issue : LexicalIssue) : Prop where
  kind : (issue.code, issue.fatal) ∈ among
  position : c.Passes issue.position

theorem Found.of_kind {among : List (String × Bool)} {c : Cursor} {code : String} {fatal : Bool}
    (hkind : (code, fatal) ∈ among) {position : Position} (hp : c.Passes position)
    (arguments : List String) (since? : Option Edition) (regular : Halt.IsRegular code) :
    Found among c { code, position, arguments, fatal, since?, regular } := ⟨hkind, hp⟩

/-- All problems of a list are of some kinds and found behind the cursor. -/
def AllFound (among : List (String × Bool)) (c : Cursor) (issues : List LexicalIssue) : Prop :=
  ∀ issue ∈ issues, issue.Found among c

variable {among among' : List (String × Bool)} {c d : Cursor} {issue : LexicalIssue}
  {issues issues' : List LexicalIssue}

theorem AllFound.nil : AllFound among c [] := nofun

theorem AllFound.singleton (h : issue.Found among c) : AllFound among c [issue] := by
  intro issue' hmem
  rw [List.mem_singleton.mp hmem]
  exact h

theorem AllFound.append (h : AllFound among c issues) (h' : AllFound among c issues') :
    AllFound among c (issues ++ issues') := fun issue hmem =>
  (List.mem_append.mp hmem).elim (h issue) (h' issue)

theorem AllFound.of_reaches (hcd : c.Reaches d) (h : AllFound among d issues) :
    AllFound among c issues :=
  fun issue hmem => ⟨(h issue hmem).kind, .of_reaches hcd (h issue hmem).position⟩

theorem AllFound.mono (hamong : among ⊆ among') (h : AllFound among c issues) :
    AllFound among' c issues := fun issue hmem =>
  ⟨hamong (h issue hmem).kind, (h issue hmem).position⟩

/-- Something is noticed or not. -/
theorem AllFound.ite {p : Prop} [Decidable p] (h : AllFound among c issues) :
    AllFound among c (if p then issues else []) := by
  split
  · exact h
  · exact .nil

theorem found_gated (feature : String) (since : Edition) {p : Position} (hp : c.Passes p) :
    (gated feature since p).Found spellingKinds c := .of_kind (by decide) hp _ _ _

end LexicalIssue

open LexicalIssue (AllFound found_gated kinds spellingKinds spellingKinds_subset)

/-! ## Scanners -/

namespace NameScan

variable {c : Cursor}

theorem allFound_escape {s : NameScan} (hstop : c.Reaches s.stop)
    (hs : AllFound spellingKinds c s.issues) :
    AllFound spellingKinds c s.escape.issues := by
  unfold escape
  dsimp only
  split
  · exact hs
  · exact hs.append (.singleton (.of_kind (by decide) hstop.passes _ _ _))

theorem allFound_finish {s : NameScan} (hstop : c.Reaches s.stop)
    (hs : AllFound spellingKinds c s.issues) :
    AllFound spellingKinds c s.finish.issues := by
  fun_induction finish s with
  | case1 => exact hs
  | case2 s _ ih =>
      exact ih (hstop.trans (s.stop.reaches_advance.trans s.reaches_escape))
        (allFound_escape hstop hs)
  | case3 s _ _ _ _ ih => exact ih (hstop.trans s.stop.reaches_advance) hs
  | case4 => exact hs

end NameScan

theorem Escape.allFound_issues {c : Cursor} (e : Escape) {p : Position} (hp : c.Passes p) :
    AllFound spellingKinds c (e.issues p) := .ite (.singleton (found_gated _ _ hp))

namespace StringScan

variable {c : Cursor}

theorem allFound_escape {s : StringScan} (hstop : c.Reaches s.stop)
    (hs : AllFound spellingKinds c s.issues) :
    AllFound spellingKinds c s.escape.issues := by
  unfold escape
  dsimp only
  split
  · exact hs
  · split
    · exact hs.append (.singleton (.of_kind (by decide) hstop.passes _ _ _))
    · have hread := hs.append ((Escape.read false s.stop.advance).allFound_issues hstop.passes)
      split
      · exact hread
      · exact hread.append (.singleton (.of_kind (by decide) hstop.passes _ _ _))

theorem allFound_finish {quote : Char} {start : Position} (hstart : c.Passes start)
    {s : StringScan} (hstop : c.Reaches s.stop)
    (hs : AllFound spellingKinds c s.issues) :
    AllFound spellingKinds c (s.finish quote start).issues := by
  have hunclosed : AllFound spellingKinds c [{ code := "W112", position := start }] :=
    .singleton (.of_kind (by decide) hstart _ _ _)
  fun_induction finish quote start s with
  | case1 => exact hs.append hunclosed
  | case2 => exact hs.append hunclosed
  | case3 => exact hs
  | case4 s _ _ _ ih =>
      exact ih (hstop.trans (s.stop.reaches_advance.trans s.reaches_escape))
        (allFound_escape hstop hs)
  | case5 s _ _ _ _ _ ih => exact ih (hstop.trans s.stop.reaches_advance) hs

end StringScan

namespace TemplateScan

variable {c : Cursor}

theorem allFound_escape {s : TemplateScan} (hstop : c.Reaches s.stop)
    (hs : AllFound spellingKinds c s.issues) :
    AllFound spellingKinds c s.escape.issues := by
  unfold escape
  dsimp only
  split
  · exact hs
  · split
    · exact hs
    · exact hs.append (Escape.allFound_issues _ hstop.passes)

theorem allFound_finish {start : Position} (hstart : c.Passes start) {s : TemplateScan}
    (hstop : c.Reaches s.stop)
    (hs : AllFound spellingKinds c s.issues) :
    AllFound spellingKinds c (s.finish start).issues := by
  fun_induction finish start s with
  | case1 => exact hs.append (.singleton (.of_kind (by decide) hstart _ _ _))
  | case2 => exact hs
  | case3 => exact hs
  | case4 s _ _ _ ih =>
      exact ih (hstop.trans (s.stop.reaches_advance.trans s.reaches_escape))
        (allFound_escape hstop hs)
  | case5 s _ _ _ _ _ ih => exact ih (hstop.trans s.stop.reaches_advance) hs

end TemplateScan

namespace Numeral

theorem allFound_read (c : Cursor) : AllFound spellingKinds c (read c).issues := by
  have hc : c.Passes c.position := (Reaches.refl c).passes
  unfold read
  split
  next radix _ =>
    change AllFound spellingKinds c (radixIssues radix c.position)
    unfold radixIssues
    split
    · exact .singleton (found_gated _ _ hc)
    · exact .ite (.singleton (found_gated _ _ hc))
  · split
    · unfold readZero
      dsimp only
      split <;> exact .nil
    · unfold readDecimal
      dsimp only
      split
      · exact .ite (.singleton (.of_kind (by decide) hc _ _ _))
      · exact .append (.ite (.singleton (.of_kind (by decide) hc _ _ _)))
          (.ite (.singleton (.of_kind (by decide) hc _ _ _)))

theorem issues_glue (n : Numeral) : n.glue.issues = n.issues := by
  unfold glue
  split <;> rfl

end Numeral

namespace Trivia

variable {c : Cursor} {t t' : Trivia}

/-- What was gathered between two tokens stands behind the cursor. -/
structure Behind (c : Cursor) (t : Trivia) : Prop where
  stop : c.Reaches t.stop
  issues : AllFound kinds c t.issues
  directives : ∀ d ∈ t.directives, c.Passes d.position

theorem reaches_step? (hstep : t.step? = some t') : t.stop.Reaches t'.stop := by
  cases piece_of_step? hstep with
  | white hreads | lineComment hreads | blockComment hreads | unclosedComment hreads =>
      exact hreads.reaches

/-- The directive that a comment is stands where the comment begins. -/
theorem Behind.addComment (ht : t.Behind c) (text : List Char) (block : Bool) {stop : Cursor}
    (hstop : c.Reaches stop) :
    ({ t.addComment text block t.stop.position with stop } : Trivia).Behind c where
  stop := hstop
  issues := ht.issues
  directives d hd := by
    rcases List.mem_append.mp hd with hd | hd
    · exact ht.directives d hd
    · have hposition : d.position = t.stop.position := by
        have hcomment := Option.mem_toList.mp hd
        unfold Directive.ofComment? at hcomment
        split at hcomment
        · cases hcomment
          rfl
        · obtain ⟨⟨keyword, rest⟩, -, hcomment⟩ := Option.bind_eq_some_iff.mp hcomment
          obtain ⟨kind, -, hcomment⟩ := Option.bind_eq_some_iff.mp hcomment
          cases hcomment
          rfl
      rw [hposition]
      exact ht.stop.passes

theorem Behind.step? (ht : t.Behind c) (hstep : t.step? = some t') : t'.Behind c := by
  have hstop : c.Reaches t'.stop := ht.stop.trans (reaches_step? hstep)
  unfold Trivia.step? at hstep
  split at hstep
  · cases hstep
  · cases hstep
    exact ht.addComment _ false hstop
  · cases hstep
    unfold skipBlockComment at hstop ⊢
    dsimp only at hstop ⊢
    split at hstop
    · rw [if_pos ‹_›]
      refine ⟨hstop, ht.issues.append (.singleton ?_), ht.directives⟩
      exact .of_kind (by decide) ht.stop.passes _ _ _
    · rw [if_neg ‹_›]
      exact ⟨hstop, ht.issues, (ht.addComment _ true hstop).directives⟩
  · split at hstep
    · cases hstep
      exact ⟨hstop, ht.issues, ht.directives⟩
    · split at hstep
      · cases hstep
        refine ⟨hstop, ht.issues.append (.singleton ?_), ht.directives⟩
        exact .of_kind (by decide) ht.stop.passes _ _ _
      · split at hstep <;> cases hstep
        exact ⟨hstop, ht.issues, ht.directives⟩

theorem Behind.skip (ht : t.Behind c) : t.skip.Behind c := by
  fun_induction Trivia.skip t with
  | case1 => exact ht
  | case2 t t' hstep ih => exact ih (ht.step? hstep)

theorem before_behind (c : Cursor) : (before c).Behind c := by
  refine .skip ⟨?_, .nil, nofun⟩
  unfold afterHashbang lineEnd
  split
  · exact reaches_skipWhile _ c
  · exact .refl c

end Trivia

/-! ## Tokens -/

namespace Token

variable {c : Cursor} {t : Token}

/-- The token and all that comes with it stand behind the cursor. -/
structure Behind (c : Cursor) (t : Token) : Prop where
  start : c.Reaches t.start
  stop : c.Reaches t.stop
  issues : AllFound kinds c t.issues
  directives : ∀ d ∈ t.directives, c.Passes d.position

theorem allFound_scan (c : Cursor) : AllFound spellingKinds c (scan c).issues := by
  have hc : c.Passes c.position := (Reaches.refl c).passes
  have hadvance : c.Reaches c.advance := c.reaches_advance
  unfold scan
  split
  · exact .nil
  · split
    · exact StringScan.allFound_finish hc hadvance .nil
    · split
      · exact TemplateScan.allFound_finish hc hadvance .nil
      · split
        · -- The problems of the form come before those of the value.
          have hread : AllFound spellingKinds c (Numeral.read c).glue.issues := by
            rw [Numeral.issues_glue]
            exact Numeral.allFound_read c
          refine .append (.append (.append hread ?_) ?_) (.ite (.singleton ?_))
          · exact .ite (.singleton (found_gated _ _ hc))
          · exact .ite (.singleton (found_gated _ _ hc))
          · exact .of_kind (by decide) hc _ _ _
        · split
          · exact NameScan.allFound_finish hadvance .nil
          · split
            · exact NameScan.allFound_finish (.refl c) .nil
            · exact .nil

theorem next_behind (c : Cursor) : (next c).Behind c where
  start := (next_follows c).reaches_start
  stop := (next_follows c).reaches_start.trans (next_follows c).reaches_stop
  issues :=
    .append (Trivia.before_behind c).issues
      (.of_reaches (Trivia.before_behind c).stop ((allFound_scan _).mono spellingKinds_subset))
  directives := (Trivia.before_behind c).directives

theorem Behind.of_reaches {d : Cursor} (hcd : c.Reaches d) (ht : t.Behind d) : t.Behind c where
  start := hcd.trans ht.start
  stop := hcd.trans ht.stop
  issues := .of_reaches hcd ht.issues
  directives d hd := .of_reaches hcd (ht.directives d hd)

/-- Read again, a token keeps none of the problems that stood in front of it. -/
theorem allFound_rescanTemplate (hstart : c.Reaches t.start) :
    AllFound spellingKinds c t.rescanTemplate.issues :=
  TemplateScan.allFound_finish hstart.passes (hstart.trans t.start.reaches_advance) .nil

theorem allFound_rescanRegexp (hstart : c.Reaches t.start) :
    AllFound spellingKinds c t.rescanRegexp.issues := by
  change AllFound _ c (if _ then _ else _)
  split
  · exact .singleton (.of_kind (by decide) hstart.passes _ _ _)
  · split
    · exact .nil
    · exact .singleton (.of_kind (by decide) hstart.passes _ _ _)

theorem Behind.rescanTemplate (ht : t.Behind c) : t.rescanTemplate.Behind c where
  start := ht.start
  stop := by
    refine ht.start.trans (t.start.reaches_advance.trans ?_)
    exact TemplateScan.reaches_finish t.start.position { stop := t.start.advance }
  issues := (allFound_rescanTemplate ht.start).mono spellingKinds_subset
  directives := ht.directives

theorem Behind.rescanRegexp (ht : t.Behind c) : t.rescanRegexp.Behind c where
  start := ht.start
  stop := by
    refine ht.start.trans (t.start.reaches_advance.trans ?_)
    refine (PatternScan.reaches_finish { stop := t.start.advance }).trans ?_
    change Reaches _ (if _ then _ else _)
    split
    · exact reaches_skipWhile _ _
    · exact .refl _
  issues := (allFound_rescanRegexp ht.start).mono spellingKinds_subset
  directives := ht.directives

/-- Every token that a parser can be given from a cursor on stands behind it, with all that comes
with it. -/
theorem LeadsTo.behind (hleads : (Token.next c).LeadsTo t) : t.Behind c := by
  induction hleads with
  | refl => exact next_behind c
  | next _ ih => exact (next_behind _).of_reaches ih.stop
  | regexp _ _ ih => exact ih.rescanRegexp
  | template _ _ ih => exact ih.rescanTemplate

end Token

end ScriptLint
