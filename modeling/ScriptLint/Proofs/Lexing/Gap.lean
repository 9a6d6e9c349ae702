import ScriptLint.Proofs.Lexing.Extent

/-! # Gaps between tokens

What may stand between two tokens, as a grammar of its own: white space, line terminators, complete
comments, a `#!` line where the source begins, and a comment that is never closed where it ends.
Skipping passes over a text of this grammar, goes on until a token or the end of the source comes,
and knows afterwards whether a line ended in between.
-/

namespace ScriptLint

open Character (isLineTerminator isSpace)

/-- The delimiter that closes a block comment. -/
def commentCloser : List Char := ['*', '/']

/-- Whether a line is over: its terminator comes next, or the source ends, as `atEnd` tells. -/
def LineOver (atEnd : Prop) : List Char → Prop
  | [] => atEnd
  | c :: _ => isLineTerminator c

/-- White space, line terminators and comments. `atEnd` says that nothing follows in the source, and
`cut` that the last comment may lack its end. -/
inductive Blank (atEnd cut : Prop) : List Char → Prop
  | nil : Blank atEnd cut []
  | white {c : Char} {rest : List Char} : isLineTerminator c ∨ isSpace c →
      Blank atEnd cut rest → Blank atEnd cut (c :: rest)
  | lineComment {body rest : List Char} : (∀ c ∈ body, isLineTerminator c = false) →
      LineOver atEnd rest → Blank atEnd cut rest → Blank atEnd cut ('/' :: '/' :: body ++ rest)
  | blockComment {body rest : List Char} : ¬ commentCloser <:+: body →
      Blank atEnd cut rest → Blank atEnd cut ('/' :: '*' :: body ++ commentCloser ++ rest)
  | unclosedComment {body : List Char} : cut → ¬ commentCloser <:+: body →
      Blank atEnd cut ('/' :: '*' :: body)

/-- What may stand in front of a token. Where the source begins, that may open with a `#!` line. -/
inductive Gap (atStart atEnd cut : Prop) : List Char → Prop
  | blank {gap : List Char} : Blank atEnd cut gap → Gap atStart atEnd cut gap
  | hashbang {body rest : List Char} : atStart → (∀ c ∈ body, isLineTerminator c = false) →
      LineOver atEnd rest → Blank atEnd cut rest → Gap atStart atEnd cut ('#' :: '!' :: body ++ rest)

theorem LineOver.imp {p q : Prop} (hpq : p → q) {rest : List Char} (hover : LineOver p rest) :
    LineOver q rest := by
  cases rest with
  | nil => exact hpq hover
  | cons => exact hover

theorem Blank.imp {p q p' q' : Prop} (hp : p → p') (hq : q → q') {gap : List Char}
    (hgap : Blank p q gap) : Blank p' q' gap := by
  induction hgap with
  | nil => exact .nil
  | white hc _ ih => exact .white hc ih
  | lineComment hbody hover _ ih => exact .lineComment hbody (hover.imp hp) ih
  | blockComment hbody _ ih => exact .blockComment hbody ih
  | unclosedComment hcut hbody => exact .unclosedComment (hq hcut) hbody

theorem Gap.imp {s p q p' q' : Prop} (hp : p → p') (hq : q → q') {gap : List Char}
    (hgap : Gap s p q gap) : Gap s p' q' gap := by
  cases hgap with
  | blank hblank => exact .blank (hblank.imp hp hq)
  | hashbang hs hbody hover hblank => exact .hashbang hs hbody (hover.imp hp) (hblank.imp hp hq)

namespace Trivia

open Cursor

/-! ## One piece -/

@[simp] theorem isLineTerminator_slash : isLineTerminator '/' = false := by decide

@[simp] theorem isLineTerminator_star : isLineTerminator '*' = false := by decide

@[simp] theorem isLineTerminator_hash : isLineTerminator '#' = false := by decide

@[simp] theorem isLineTerminator_bang : isLineTerminator '!' = false := by decide

theorem any_eq_false_of_forall {body : List Char}
    (hbody : ∀ c ∈ body, isLineTerminator c = false) : body.any isLineTerminator = false := by
  simpa using hbody

theorem reads_lineEnd (c : Cursor) :
    ∃ body, c.Reads body (lineEnd c) ∧ (∀ x ∈ body, isLineTerminator x = false) ∧
      ∀ x ∈ (lineEnd c).rest.head?, isLineTerminator x := by
  refine ⟨_, reads_skipWhile _ c, ?_, ?_⟩
  · intro x hx
    simpa using List.all_eq_true.mp List.all_takeWhile x hx
  · intro x hx
    rw [lineEnd, rest_skipWhile] at hx
    have hhead := List.head?_dropWhile_not (fun x => !isLineTerminator x) c.rest
    rw [Option.mem_def.mp hx] at hhead
    simpa using hhead

/-- The end of a comment is the first closer after its beginning. -/
theorem reads_commentEnd (c : Cursor) :
    ∃ body, c.Reads body (commentEnd c) ∧ ¬ commentCloser <:+: body ∧
      ((commentEnd c).rest = [] ∨ ∃ rest, (commentEnd c).rest = '*' :: '/' :: rest) := by
  suffices h : ∀ cs position, ∃ body, Reads ⟨cs, position⟩ body (commentEnd.go cs position) ∧
      ¬ commentCloser <:+: body ∧ ((commentEnd.go cs position).rest = [] ∨
        ∃ rest, (commentEnd.go cs position).rest = '*' :: '/' :: rest) from h c.rest c.position
  intro cs
  induction cs with
  | nil => exact fun position => ⟨[], .nil _, by simp [commentCloser], .inl rfl⟩
  | cons ch cs ih =>
      intro position
      rw [commentEnd.go.eq_def]
      split
      · contradiction
      next rest heq =>
        obtain ⟨rfl, rfl⟩ := List.cons.inj heq
        exact ⟨[], .nil _, by simp [commentCloser], .inr ⟨rest, rfl⟩⟩
      next here _ _ _ _ hnot heq =>
        obtain ⟨rfl, rfl⟩ := List.cons.inj heq
        obtain ⟨body, hreads, hbody, hstop⟩ := ih (here.after ch cs.head?)
        refine ⟨ch :: body, .cons hreads, ?_, hstop⟩
        rw [List.infix_cons_iff]
        rintro (⟨tail, htail⟩ | hinfix)
        · -- A closer at the head would have ended the comment here.
          obtain ⟨rfl, hbodyEq⟩ := List.cons.inj htail
          have hcs := hreads.rest_eq
          rw [← hbodyEq] at hcs
          exact hnot _ rfl (by simpa using hcs)
        · exact hbody hinfix

/-- What skipping one piece does: which text it takes, and what it finds out on the way. -/
inductive Piece (t t' : Trivia) : Prop
  | white {c : Char} : t.stop.Reads [c] t'.stop → isLineTerminator c ∨ isSpace c →
      t'.newline = (t.newline || isLineTerminator c) → Piece t t'
  | lineComment {body : List Char} : t.stop.Reads ('/' :: '/' :: body) t'.stop →
      (∀ c ∈ body, isLineTerminator c = false) →
      (∀ c ∈ t'.stop.rest.head?, isLineTerminator c) → t'.newline = t.newline → Piece t t'
  | blockComment {body : List Char} : t.stop.Reads ('/' :: '*' :: body ++ commentCloser) t'.stop →
      ¬ commentCloser <:+: body → t'.newline = (t.newline || body.any isLineTerminator) → Piece t t'
  | unclosedComment {body : List Char} : t.stop.Reads ('/' :: '*' :: body) t'.stop →
      ¬ commentCloser <:+: body → t'.newline = (t.newline || body.any isLineTerminator) →
      t'.stop.rest = [] → (∃ issue ∈ t'.issues, issue.code = "E017" ∧ issue.fatal) → Piece t t'

variable {t t' : Trivia}

theorem reads_two {c : Cursor} {x y : Char} {rest : List Char} (hrest : c.rest = x :: y :: rest) :
    c.Reads [x, y] c.advance.advance :=
  (reads_advance_cons hrest).append (reads_advance_cons (rest_advance hrest))

theorem piece_skipLineComment {rest : List Char} (hrest : t.stop.rest = '/' :: '/' :: rest) :
    Piece t t.skipLineComment := by
  obtain ⟨body, hreads, hbody, hover⟩ := reads_lineEnd t.stop.advance.advance
  exact .lineComment ((reads_two hrest).append hreads) hbody hover rfl

theorem piece_skipBlockComment {rest : List Char} (hrest : t.stop.rest = '/' :: '*' :: rest) :
    Piece t t.skipBlockComment := by
  obtain ⟨body, hreads, hbody, hstop⟩ := reads_commentEnd t.stop.advance.advance
  have hopened := (reads_two hrest).append hreads
  have htext : t.stop.advance.advance.charsTo (commentEnd t.stop.advance.advance) = body :=
    hreads.charsTo_eq
  unfold skipBlockComment
  -- Either the source ends inside the comment, or its closer is taken too.
  rcases hstop with hnil | ⟨tail, htail⟩
  · simp only [hnil, List.isEmpty_nil, if_true, htext]
    exact .unclosedComment hopened hbody rfl hnil ⟨_, List.mem_append_right _ (.head _), rfl, rfl⟩
  · simp only [htail, List.isEmpty_cons, Bool.false_eq_true, if_false, htext]
    exact .blockComment (hopened.append (reads_two htail)) hbody rfl

theorem piece_of_step? (hstep : t.step? = some t') : Piece t t' := by
  unfold step? at hstep
  split at hstep
  · cases hstep
  next rest hrest =>
    cases hstep
    exact piece_skipLineComment hrest
  next rest hrest =>
    cases hstep
    exact piece_skipBlockComment hrest
  next ch rest _ _ hrest =>
    have hreads := reads_advance_cons hrest
    split at hstep
    next hline =>
      cases hstep
      exact .white hreads (.inl hline) (by simp [hline])
    next hline =>
      have hnewline : t.newline = (t.newline || isLineTerminator ch) := by simp [hline]
      split at hstep
      next hnbsp =>
        cases hstep
        exact .white hreads (.inr (by rw [hnbsp]; decide)) hnewline
      · split at hstep
        next hspace =>
          cases hstep
          exact .white hreads (.inr hspace) hnewline
        · cases hstep

/-- Problems found on the way stay. -/
theorem issues_subset_of_step? (hstep : t.step? = some t') : t.issues ⊆ t'.issues := by
  unfold step? at hstep
  split at hstep
  · cases hstep
  · cases hstep
    exact List.Subset.refl _
  · cases hstep
    unfold skipBlockComment
    dsimp only
    split
    · exact List.subset_append_left _ _
    · exact List.Subset.refl _
  · split at hstep
    · cases hstep
      exact List.Subset.refl _
    · split at hstep
      · cases hstep
        exact List.subset_append_left _ _
      · split at hstep
        · cases hstep
          exact List.Subset.refl _
        · cases hstep

/-! ## All pieces -/

theorem step?_skip (t : Trivia) : t.skip.step? = none := by
  fun_induction skip t with
  | case1 t hnone => exact hnone
  | case2 t t' _ ih => exact ih

theorem issues_subset_skip (t : Trivia) : t.issues ⊆ t.skip.issues := by
  fun_induction skip t with
  | case1 => exact List.Subset.refl _
  | case2 t t' hstep ih => exact List.Subset.trans (issues_subset_of_step? hstep) ih

/-- A line terminator is never left in place. -/
theorem not_isLineTerminator_of_step?_eq_none {c : Char} (hstep : t.step? = none)
    (hc : c ∈ t.stop.rest.head?) : isLineTerminator c = false := by
  obtain ⟨rest, hrest⟩ : ∃ rest, t.stop.rest = c :: rest := by
    cases hrest : t.stop.rest with
    | nil => simp [hrest] at hc
    | cons x rest =>
        obtain rfl : x = c := by simpa [hrest] using hc
        exact ⟨rest, rfl⟩
  unfold step? at hstep
  split at hstep
  next hnil => rw [hrest] at hnil; cases hnil
  · cases hstep
  · cases hstep
  next ch _ _ _ heq =>
    obtain ⟨rfl, _⟩ := List.cons.inj (hrest.symm.trans heq)
    cases hline : isLineTerminator c with
    | false => rfl
    | true =>
        rw [if_pos hline] at hstep
        cases hstep

/-- Whether skipping ended at the end of the source, inside a comment. -/
def IsCut (t : Trivia) : Prop :=
  t.stop.rest = [] ∧ ∃ issue ∈ t.issues, issue.code = "E017" ∧ issue.fatal

/-- A comment up to the end of its line is complete when all is skipped. -/
theorem lineOver_skip {gap : List Char} (hgap : t.stop.Reads gap t.skip.stop)
    (hover : ∀ c ∈ t.stop.rest.head?, isLineTerminator c) :
    LineOver (t.skip.stop.rest = []) gap := by
  have hrest := hgap.rest_eq
  cases gap with
  | cons c gap => exact hover c (by simp [hrest])
  | nil =>
      change t.skip.stop.rest = []
      -- If nothing is skipped and the source goes on, then with a line terminator, which would
      -- have been skipped.
      cases hstop : t.skip.stop.rest with
      | nil => rfl
      | cons c cs =>
          have hline := hover c (by simp [hrest, hstop])
          rw [not_isLineTerminator_of_step?_eq_none (step?_skip t) (by simp [hstop])] at hline
          cases hline

/-- Skipping passes over a text of the grammar and notices the line terminators in it. -/
theorem reads_skip (t : Trivia) :
    ∃ gap, t.stop.Reads gap t.skip.stop ∧ Blank (t.skip.stop.rest = []) t.skip.IsCut gap ∧
      t.skip.newline = (t.newline || gap.any isLineTerminator) := by
  fun_induction skip t with
  | case1 t => exact ⟨[], .nil _, .nil, by simp⟩
  | case2 t t' hstep ih =>
      obtain ⟨gap, hreads, hblank, hnewline⟩ := ih
      cases piece_of_step? hstep with
      | @white c hpiece hwhite hline =>
          refine ⟨c :: gap, hpiece.append hreads, .white hwhite hblank, ?_⟩
          simp [hnewline, hline, Bool.or_assoc]
      | @lineComment body hpiece hbody hover hline =>
          refine ⟨'/' :: '/' :: body ++ gap, hpiece.append hreads,
            .lineComment hbody (lineOver_skip hreads hover) hblank, ?_⟩
          simp [hnewline, hline, any_eq_false_of_forall hbody]
      | @blockComment body hpiece hbody hline =>
          refine ⟨'/' :: '*' :: body ++ commentCloser ++ gap, hpiece.append hreads,
            .blockComment hbody hblank, ?_⟩
          have hcloser : commentCloser.any isLineTerminator = false := by decide
          simp [hnewline, hline, hcloser, Bool.or_assoc]
      | @unclosedComment body hpiece hbody hline hend hissue =>
          -- The comment goes on to the end of the source, so nothing more is skipped.
          have hgap : gap = [] := by
            have := hreads.rest_eq
            rw [hend] at this
            exact (List.append_eq_nil_iff.mp this.symm).1
          subst hgap
          obtain ⟨issue, hmem, hcode⟩ := hissue
          have hcut : t'.skip.IsCut := by
            refine ⟨?_, issue, issues_subset_skip t' hmem, hcode⟩
            simpa [hend] using hreads.rest_eq.symm
          refine ⟨'/' :: '*' :: body, by simpa using hpiece.append hreads,
            .unclosedComment hcut hbody, ?_⟩
          simp [hnewline, hline]

/-- The line that a source may open with. -/
theorem reads_afterHashbang (c : Cursor) : afterHashbang c = c ∨
    ∃ body, c.position.offset = 0 ∧ c.Reads ('#' :: '!' :: body) (afterHashbang c) ∧
      (∀ x ∈ body, isLineTerminator x = false) ∧
      ∀ x ∈ (afterHashbang c).rest.head?, isLineTerminator x := by
  unfold afterHashbang
  split
  next rest hstart hrest =>
    obtain ⟨_, _, _, hover⟩ := reads_lineEnd c
    refine .inr ⟨rest.takeWhile (!isLineTerminator ·), hstart, ?_, ?_, hover⟩
    · have hline : c.rest.takeWhile (!isLineTerminator ·) =
          '#' :: '!' :: rest.takeWhile (!isLineTerminator ·) := by
        simp [hrest]
      rw [← hline]
      exact reads_skipWhile _ c
    · intro x hx
      simpa using List.all_eq_true.mp List.all_takeWhile x hx
  · exact .inl rfl

/-- All that stands between a cursor and the next token is a gap. -/
theorem reads_before (c : Cursor) :
    ∃ gap, c.Reads gap (before c).stop ∧
      Gap (c.position.offset = 0) ((before c).stop.rest = []) (before c).IsCut gap ∧
      (before c).newline = gap.any isLineTerminator := by
  obtain ⟨gap, hreads, hblank, hskip⟩ := reads_skip { stop := afterHashbang c }
  have hnewline : (before c).newline = gap.any isLineTerminator := hskip.trans (Bool.false_or _)
  change (afterHashbang c).Reads gap (before c).stop at hreads
  rcases reads_afterHashbang c with hnone | ⟨body, hstart, hline, hbody, hover⟩
  · rw [hnone] at hreads
    exact ⟨gap, hreads, .blank hblank, hnewline⟩
  · refine ⟨'#' :: '!' :: body ++ gap, hline.append hreads,
      .hashbang hstart hbody (lineOver_skip hreads hover) hblank, ?_⟩
    simp [hnewline, any_eq_false_of_forall hbody]

end Trivia

end ScriptLint
