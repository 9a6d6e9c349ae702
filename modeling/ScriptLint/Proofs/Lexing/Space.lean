import ScriptLint.Proofs.Lexing.Issue

/-! # Non-breaking spaces

Skipping towards a token notes each non-breaking space on its way, unless that belongs to a comment
or to a `#!` line. Whether it does is not a matter of the steps that skipping takes: what stands in
front of the space tells, for only outside of those it is a text of complete pieces. A token that is
read again forgets what was noted in front of it.
-/

namespace ScriptLint

open Character (isLineTerminator isSpace)

namespace Cursor

variable {c d e : Cursor} {cs ds : List Char}

/-- A text that is read in one go may be read in two. -/
theorem Reads.of_append (hcd : c.Reads cs d) (hce : c.Reads (cs ++ ds) e) : d.Reads ds e := by
  induction hcd with
  | nil => exact hce
  | cons _ ih =>
      cases hce with
      | cons hce => exact ih hce

theorem Reads.eq_of_nil (hcd : c.Reads [] d) : c = d := by
  cases hcd
  rfl

end Cursor

open Cursor

/-! ## One reading of a gap -/

/-- A line ends in one place only. -/
theorem eq_of_lines {body body' rest rest' : List Char}
    (hbody : ∀ c ∈ body, isLineTerminator c = false)
    (hbody' : ∀ c ∈ body', isLineTerminator c = false)
    (hover : ∀ c ∈ rest.head?, isLineTerminator c)
    (hover' : ∀ c ∈ rest'.head?, isLineTerminator c) (htext : body ++ rest = body' ++ rest') :
    body = body' := by
  have hline {body rest : List Char} (hbody : ∀ c ∈ body, isLineTerminator c = false)
      (hover : ∀ c ∈ rest.head?, isLineTerminator c) :
      (body ++ rest).takeWhile (!isLineTerminator ·) = body := by
    have hnone : rest.takeWhile (!isLineTerminator ·) = [] := by
      cases rest with
      | nil => rfl
      | cons c rest => simp [hover c (by simp)]
    rw [List.takeWhile_append_of_pos (by simpa using hbody), hnone, List.append_nil]
  rw [← hline hbody hover, htext, hline hbody' hover']

/-- A comment ends in one place only. -/
theorem eq_of_closed {body body' rest rest' : List Char} (hbody : ¬ commentCloser <:+: body)
    (hbody' : ¬ commentCloser <:+: body')
    (htext : body ++ commentCloser ++ rest = body' ++ commentCloser ++ rest') : body = body' := by
  -- Where one of the two is over, the other one would go on with the closer.
  have hover {body rest rest' : List Char} (hbody : ¬ commentCloser <:+: body)
      (htext : commentCloser ++ rest = body ++ commentCloser ++ rest') : body = [] := by
    match body with
    | [] => rfl
    | [x] => simp [commentCloser] at htext
    | x :: y :: body =>
        obtain ⟨rfl, rfl, -⟩ : '*' = x ∧ '/' = y ∧ _ := by simpa [commentCloser] using htext
        exact absurd (List.prefix_append commentCloser body).isInfix hbody
  induction body generalizing body' with
  | nil => exact (hover hbody' htext).symm
  | cons x body ih =>
      cases body' with
      | nil => exact hover hbody htext.symm
      | cons y body' =>
          obtain ⟨rfl, htail⟩ := List.cons.inj htext
          have hrest {body : List Char} (h : ¬ commentCloser <:+: x :: body) :
              ¬ commentCloser <:+: body :=
            fun hin => h (hin.trans (List.suffix_cons x body).isInfix)
          rw [ih (hrest hbody) (hrest hbody') htail]

namespace Trivia

variable {t t' : Trivia} {before : List Char} {d : Cursor}

/-- A text of complete pieces begins with the piece that is skipped next. -/
theorem reads_of_step? (hstep : t.step? = some t') (hblank : Blank False False before)
    (hne : before ≠ []) (hreads : t.stop.Reads before d) :
    ∃ rest, Blank False False rest ∧ t'.stop.Reads rest d := by
  have hslash {c : Char} (hwhite : isLineTerminator c ∨ isSpace c) : c ≠ '/' := by
    rintro rfl
    revert hwhite
    decide
  have hrest := hreads.rest_eq
  cases hblank with
  | nil => exact absurd rfl hne
  | @white c rest hwhite hrest' =>
      refine ⟨rest, hrest', ?_⟩
      cases piece_of_step? hstep with
      | @white c' hpiece =>
          obtain ⟨rfl, -⟩ := List.cons.inj (hpiece.rest_eq.symm.trans hrest)
          exact hpiece.of_append hreads
      | lineComment hpiece | blockComment hpiece | unclosedComment hpiece =>
          obtain ⟨rfl, -⟩ := List.cons.inj (hrest.symm.trans hpiece.rest_eq)
          exact absurd rfl (hslash hwhite)
  | @lineComment body rest hbody hover hrest' =>
      refine ⟨rest, hrest', ?_⟩
      cases piece_of_step? hstep with
      | white hpiece hwhite =>
          obtain ⟨rfl, -⟩ := List.cons.inj (hpiece.rest_eq.symm.trans hrest)
          exact absurd rfl (hslash hwhite)
      | @lineComment body' hpiece hbody' hover' =>
          have hline : ∀ c ∈ (rest ++ d.rest).head?, isLineTerminator c := by
            cases rest with
            | nil => exact hover.elim
            | cons c rest => simpa [LineOver] using hover
          have htext : body ++ (rest ++ d.rest) = body' ++ t'.stop.rest := by
            simpa using hrest.symm.trans hpiece.rest_eq
          obtain rfl := eq_of_lines hbody hbody' hline hover' htext
          exact hpiece.of_append hreads
      | blockComment hpiece | unclosedComment hpiece =>
          have htext := hrest.symm.trans hpiece.rest_eq
          simp at htext
  | @blockComment body rest hbody hrest' =>
      refine ⟨rest, hrest', ?_⟩
      cases piece_of_step? hstep with
      | white hpiece hwhite =>
          obtain ⟨rfl, -⟩ := List.cons.inj (hpiece.rest_eq.symm.trans hrest)
          exact absurd rfl (hslash hwhite)
      | lineComment hpiece =>
          have htext := hrest.symm.trans hpiece.rest_eq
          simp at htext
      | @blockComment body' hpiece hbody' =>
          have htext : body ++ commentCloser ++ (rest ++ d.rest) =
              body' ++ commentCloser ++ t'.stop.rest := by
            simpa using hrest.symm.trans hpiece.rest_eq
          obtain rfl := eq_of_closed hbody hbody' htext
          exact hpiece.of_append hreads
      | @unclosedComment body' hpiece hbody' _ hend =>
          have htext : body' = body ++ commentCloser ++ (rest ++ d.rest) := by
            have htext := hpiece.rest_eq.symm.trans hrest
            rw [hend] at htext
            simpa using htext
          refine absurd ?_ hbody'
          rw [htext]
          exact List.infix_append body commentCloser (rest ++ d.rest)
  | unclosedComment hcut => exact hcut.elim

/-! ## The spaces that are noted -/

/-- The places at which a non-breaking space was noted. -/
def spaces (t : Trivia) : List Position :=
  (t.issues.filter (·.code = "W125")).map (·.position)

/-- At the position a non-breaking space comes after complete pieces, and before the other cursor. -/
def SpaceBetween (c stop : Cursor) (p : Position) : Prop :=
  ∃ before d, c.Reads before d ∧ Blank False False before ∧ d.peek? = some '\u00a0' ∧
    d.position = p ∧ d.Reaches stop

theorem peek?_eq_some_iff {c : Cursor} {x : Char} :
    c.peek? = some x ↔ ∃ rest, c.rest = x :: rest := by
  simp [Cursor.peek?, List.head?_eq_some_iff]

/-- Skipping a piece notes a space if that is the piece. -/
theorem spaces_of_step? (hstep : t.step? = some t') :
    (t.stop.peek? = some '\u00a0' → t'.stop = t.stop.advance ∧
      t'.spaces = t.spaces ++ [t.stop.position]) ∧
    (t.stop.peek? ≠ some '\u00a0' → t'.spaces = t.spaces) := by
  unfold step? at hstep
  split at hstep
  · cases hstep
  next hrest =>
    cases hstep
    exact ⟨fun h => by simp [Cursor.peek?, hrest] at h, fun _ => rfl⟩
  next hrest =>
    cases hstep
    refine ⟨fun h => by simp [Cursor.peek?, hrest] at h, fun _ => ?_⟩
    unfold skipBlockComment
    dsimp only
    split
    · simp [spaces]
    · rfl
  next c rest _ _ hrest =>
    have hpeek : t.stop.peek? = some c := by simp [Cursor.peek?, hrest]
    rw [hpeek]
    split at hstep
    next hline =>
      cases hstep
      refine ⟨fun h => ?_, fun _ => rfl⟩
      rw [Option.some.inj h] at hline
      exact absurd hline (by decide)
    next =>
      split at hstep
      next hspace =>
        cases hstep
        exact ⟨fun _ => ⟨rfl, by simp [spaces]⟩, fun h => absurd (congrArg some hspace) h⟩
      next hspace =>
        split at hstep
        · cases hstep
          exact ⟨fun h => absurd (Option.some.inj h) hspace, fun _ => rfl⟩
        · cases hstep

/-- A comment up to the end of its line is complete in front of a space. -/
theorem lineOver_of_space {c : Cursor} (hover : ∀ x ∈ c.rest.head?, isLineTerminator x)
    (hreads : c.Reads before d) (hpeek : d.peek? = some '\u00a0') : LineOver False before := by
  rw [hreads.rest_eq] at hover
  cases before with
  | cons c before => exact hover c (by simp)
  | nil =>
      have hline := hover '\u00a0' (by simpa [Cursor.peek?] using hpeek)
      exact absurd hline (by decide)

/-- What stands behind a piece stands behind its beginning. -/
theorem SpaceBetween.of_step? {stop : Cursor} {p : Position} (hstep : t.step? = some t')
    (hp : SpaceBetween t'.stop stop p) : SpaceBetween t.stop stop p := by
  obtain ⟨before, d, hreads, hblank, hpeek, hp⟩ := hp
  cases piece_of_step? hstep with
  | white hpiece hwhite => exact ⟨_, d, hpiece.append hreads, .white hwhite hblank, hpeek, hp⟩
  | blockComment hpiece hbody =>
      exact ⟨_, d, hpiece.append hreads, .blockComment hbody hblank, hpeek, hp⟩
  | lineComment hpiece hbody hover =>
      have hline := lineOver_of_space hover hreads hpeek
      exact ⟨_, d, hpiece.append hreads, .lineComment hbody hline hblank, hpeek, hp⟩
  | unclosedComment _ _ _ hend =>
      have hrest := hreads.rest_eq
      rw [hend] at hrest
      simp [Cursor.peek?, (List.append_eq_nil_iff.mp hrest.symm).2] at hpeek

theorem step?_ne_none_of_space (hpeek : t.stop.peek? = some '\u00a0') : t.step? ≠ none := by
  obtain ⟨rest, hrest⟩ := peek?_eq_some_iff.mp hpeek
  have hline : isLineTerminator '\u00a0' = false := by decide
  unfold step?
  simp [hrest, hline]

theorem reaches_skip (t : Trivia) : t.stop.Reaches t.skip.stop := by
  obtain ⟨gap, hreads, -⟩ := reads_skip t
  exact hreads.reaches

/-- All spaces between the pieces are noted on the way, and nothing else is. -/
theorem mem_spaces_skip (t : Trivia) (p : Position) :
    p ∈ t.skip.spaces ↔ p ∈ t.spaces ∨ SpaceBetween t.stop t.skip.stop p := by
  fun_induction skip t with
  | case1 t hnone =>
      refine (or_iff_left ?_).symm
      rintro ⟨before, d, hreads, -, hpeek, -, hreaches⟩
      -- Nothing is skipped, so the space would have to come next.
      have hbefore : before = [] := by
        by_contra hne
        have hstop := hreads.offset_eq
        have hbytes := byteLength_pos hne
        have hle := hreaches.offset_le
        omega
      subst hbefore
      rw [← hreads.eq_of_nil] at hpeek
      exact step?_ne_none_of_space hpeek hnone
  | case2 t t' hstep ih =>
      obtain ⟨hspace, hother⟩ := spaces_of_step? hstep
      rw [ih]
      constructor
      · rintro (hmem | hp)
        · by_cases hpeek : t.stop.peek? = some '\u00a0'
          · rw [(hspace hpeek).2, List.mem_append, List.mem_singleton] at hmem
            refine hmem.imp_right ?_
            rintro rfl
            have hreaches := (reaches_step? hstep).trans t'.reaches_skip
            exact ⟨[], t.stop, .nil _, .nil, hpeek, rfl, hreaches⟩
          · rw [hother hpeek] at hmem
            exact .inl hmem
        · exact .inr (hp.of_step? hstep)
      · rintro (hmem | ⟨before, d, hreads, hblank, hpeek, rfl, hreaches⟩)
        · refine .inl ?_
          by_cases hpeek : t.stop.peek? = some '\u00a0'
          · rw [(hspace hpeek).2]
            exact List.mem_append_left _ hmem
          · rwa [hother hpeek]
        · by_cases hbefore : before = []
          · subst hbefore
            rw [← hreads.eq_of_nil] at hpeek ⊢
            rw [(hspace hpeek).2]
            exact .inl (List.mem_append_right _ List.mem_cons_self)
          · obtain ⟨rest, hrest, hreads'⟩ := reads_of_step? hstep hblank hbefore hreads
            exact .inr ⟨rest, d, hreads', hrest, hpeek, rfl, hreaches⟩

end Trivia

/-! ## Tokens -/

/-- A non-breaking space stands at the position: in the gap between the cursor and the token, and in
no comment and no `#!` line of it. -/
def SpaceBefore (c : Cursor) (t : Token) (p : Position) : Prop :=
  ∃ before d, c.Reads before d ∧ Gap (c.position.offset = 0) False False before ∧
    d.peek? = some '\u00a0' ∧ d.position = p ∧ d.Reaches t.start

namespace Trivia

theorem eq_nil_of_hash {before rest : List Char} {d : Cursor} (hblank : Blank False False before)
    (hrest : '#' :: rest = before ++ d.rest) : before = [] := by
  cases hblank with
  | nil => rfl
  | white hwhite =>
      obtain ⟨rfl, -⟩ := List.cons.inj hrest
      exact absurd hwhite (by decide)
  | lineComment | blockComment | unclosedComment => simp at hrest

/-- The line that a source may open with is skipped as a whole. -/
theorem spaceBetween_afterHashbang_iff (c stop : Cursor) (p : Position) :
    SpaceBetween (afterHashbang c) stop p ↔ ∃ before d, c.Reads before d ∧
      Gap (c.position.offset = 0) False False before ∧ d.peek? = some '\u00a0' ∧
      d.position = p ∧ d.Reaches stop := by
  rcases reads_afterHashbang c with hnone | ⟨body, hstart, hline, hbody, hover⟩
  · rw [hnone]
    refine exists_congr fun before => exists_congr fun d => and_congr_right fun hreads =>
      and_congr_left fun _ => ⟨.blank, fun hgap => ?_⟩
    cases hgap with
    | blank hblank => exact hblank
    | @hashbang body rest hstart =>
        -- There is such a line, so something was skipped.
        have hrest : c.rest = '#' :: '!' :: (body ++ rest ++ d.rest) := by
          simpa using hreads.rest_eq
        obtain ⟨_, -, -, hover⟩ := reads_lineEnd c
        have hskip : afterHashbang c = lineEnd c := by
          unfold afterHashbang
          simp [hstart, hrest]
        rw [← hskip, hnone, hrest] at hover
        exact absurd (hover '#' rfl) (by decide)
  · constructor
    · rintro ⟨before, d, hreads, hblank, hpeek, hp⟩
      exact ⟨_, d, hline.append hreads,
        .hashbang hstart hbody (lineOver_of_space hover hreads hpeek) hblank, hpeek, hp⟩
    · rintro ⟨before, d, hreads, hgap, hpeek, hp⟩
      have hrest := hline.rest_eq.symm.trans hreads.rest_eq
      cases hgap with
      | blank hblank =>
          obtain rfl := eq_nil_of_hash hblank hrest
          rw [← hreads.eq_of_nil, Cursor.peek?, hline.rest_eq] at hpeek
          exact absurd (Option.some.inj hpeek) (by decide)
      | @hashbang body' rest _ hbody' hover' hblank =>
          have hline' : ∀ x ∈ (rest ++ d.rest).head?, isLineTerminator x := by
            cases rest with
            | nil => exact hover'.elim
            | cons x rest => simpa [LineOver] using hover'
          have htext : body' ++ (rest ++ d.rest) = body ++ (afterHashbang c).rest := by
            simpa using hrest.symm
          obtain rfl := eq_of_lines hbody' hbody hline' hover htext
          exact ⟨rest, d, hline.of_append hreads, hblank, hpeek, hp⟩

end Trivia

namespace Token

theorem start_next (c : Cursor) : (Token.next c).start = (Trivia.before c).stop := by
  change (scan (Trivia.before c).stop).start = _
  cases hrest : (Trivia.before c).stop.rest with
  | nil =>
      rw [scan_of_rest_eq_nil hrest]
      rfl
  | cons ch rest => exact (scan_begins (Trivia.peek?_eq_some_iff.mpr ⟨rest, hrest⟩)).1

/-- Among the problems of the token is a non-breaking space at the position. -/
def NotesSpace (t : Token) (p : Position) : Prop :=
  ∃ issue ∈ t.issues, issue.code = "W125" ∧ issue.position = p

theorem not_isSpace_of_allFound {c : Cursor} {issues : List LexicalIssue}
    (hissues : LexicalIssue.AllFound LexicalIssue.spellingKinds c issues) :
    ∀ issue ∈ issues, issue.code ≠ "W125" := by
  intro issue hmem hcode
  have hkind := (hissues issue hmem).kind
  rw [hcode] at hkind
  revert hkind
  cases issue.fatal <;> decide

/-- The spaces in front of a token are among its problems, and no others are. -/
theorem notesSpace_next_iff (c : Cursor) (p : Position) :
    (Token.next c).NotesSpace p ↔ SpaceBefore c (Token.next c) p := by
  have hspaces : (Token.next c).NotesSpace p ↔ p ∈ (Trivia.before c).spaces := by
    change (∃ issue ∈ (Trivia.before c).issues ++ _, _) ↔ _
    simp only [Trivia.spaces, List.mem_append, List.mem_map, List.mem_filter, decide_eq_true_iff]
    refine exists_congr fun issue => ⟨?_, fun ⟨⟨hmem, hcode⟩, hp⟩ => ⟨.inl hmem, hcode, hp⟩⟩
    rintro ⟨hmem | hmem, hcode, hp⟩
    · exact ⟨⟨hmem, hcode⟩, hp⟩
    · exact absurd hcode (not_isSpace_of_allFound (allFound_scan _) issue hmem)
  rw [hspaces, SpaceBefore, start_next, ← Trivia.spaceBetween_afterHashbang_iff, Trivia.before,
    Trivia.mem_spaces_skip]
  exact or_iff_right (by simp [Trivia.spaces])

/-- A token of a list with one more token is that one or an earlier one. -/
theorem split_concat {tokens before after : List Token} {t last : Token}
    (hsplit : tokens ++ [last] = before ++ t :: after) :
    (tokens = before ∧ last = t) ∨ ∃ after, tokens = before ++ t :: after := by
  rcases List.eq_nil_or_concat after with rfl | ⟨after, _, rfl⟩
  · obtain ⟨rfl, hlast⟩ := List.append_inj' hsplit rfl
    exact .inl ⟨rfl, List.singleton_inj.mp hlast⟩
  · rw [List.concat_eq_append, ← List.cons_append, ← List.append_assoc] at hsplit
    exact .inr ⟨after, (List.append_inj' hsplit rfl).1⟩

/-- A token that notes a space was not read again. -/
theorem Run.eq_next_of_notesSpace {source : String} {tokens before after : List Token} {t : Token}
    {p : Position} (hrun : Run source tokens) (hsplit : tokens = before ++ t :: after)
    (hspace : t.NotesSpace p) : t = Token.next (frontier source before) := by
  obtain ⟨issue, hmem, hcode, -⟩ := hspace
  induction hrun generalizing after with
  | start => simp at hsplit
  | next _ ih =>
      obtain ⟨rfl, rfl⟩ | ⟨after, hearlier⟩ := split_concat hsplit
      · rfl
      · exact ih hearlier
  | @regexp tokens slash _ _ ih =>
      obtain ⟨rfl, rfl⟩ | ⟨after, rfl⟩ := split_concat hsplit
      · exact absurd hcode (not_isSpace_of_allFound (allFound_rescanRegexp (.refl _)) issue hmem)
      · exact ih (List.append_assoc before (t :: after) [slash])
  | @template tokens brace _ _ ih =>
      obtain ⟨rfl, rfl⟩ | ⟨after, rfl⟩ := split_concat hsplit
      · exact absurd hcode (not_isSpace_of_allFound (allFound_rescanTemplate (.refl _)) issue hmem)
      · exact ih (List.append_assoc before (t :: after) [brace])

/-- Which spaces a token of a run notes. -/
theorem Run.notesSpace_iff {source : String} {before after : List Token} {t : Token}
    (hrun : Run source (before ++ t :: after)) (p : Position) :
    t.NotesSpace p ↔ t = Token.next (frontier source before) ∧
      SpaceBefore (frontier source before) t p := by
  constructor
  · intro hspace
    have hnext := hrun.eq_next_of_notesSpace rfl hspace
    rw [hnext] at hspace
    exact ⟨hnext, by rw [hnext]; exact (notesSpace_next_iff _ p).mp hspace⟩
  · rintro ⟨hnext, hspace⟩
    rw [hnext] at hspace ⊢
    exact (notesSpace_next_iff _ p).mpr hspace

end Token

end ScriptLint
